import SageGateway.Drain.KeyView
import SageGateway.Drain.LocalDecision

namespace SageGateway.Drain

inductive Begun where
  | set (e : Entry)
  | release
  deriving DecidableEq

def Begun.after (last : Option Begun) : KeyEvent → Option Begun
  | .beganSet e => some (.set e)
  | .beganRelease => some .release
  | _ => last

def Begun.live (clock : Int) : Option Begun → Option Entry
  | some (.set e) => if clock < e.untilAt then some e else none
  | _ => none

def Write.answered (w : Write) : Bool :=
  match w.result with
  | some .propagation => false
  | some _ => true
  | none => false

namespace KeyView

def pending (v : KeyView) : Bool := v.record.any KeyState.pending

def Acked (v : KeyView) : Prop :=
  ∃ st ∈ v.record, ∃ w ∈ v.writes, w.gen = st.gen ∧ w.answered = true

instance (v : KeyView) : Decidable v.Acked :=
  have (st : KeyState) : Decidable (∃ w ∈ v.writes, w.gen = st.gen ∧ w.answered = true) :=
    Multiset.decidableExistsMultiset
  inferInstanceAs (Decidable (∃ st ∈ v.record, ∃ w ∈ v.writes, w.gen = st.gen ∧ w.answered = true))

end KeyView

structure DecidedStore where
  fleet : Fleet Unit
  last : Option Begun

namespace DecidedStore

def start (clock : Int) : DecidedStore := ⟨.start clock,none⟩

def step (C : Codec) (k : Key) (s : DecidedStore) (a : Fleet.Act Unit) : Option DecidedStore :=
  (s.fleet.step C a).map fun f => ⟨f,Begun.after s.last (s.fleet.keyEvent C k a)⟩

def Converged (C : Codec) (k : Key) (s : DecidedStore) : Prop :=
  (s.fleet.view k).writes = 0 → (s.fleet.view k).dels = 0 → (s.fleet.view k).pending = false →
    (∀ e ∈ Begun.live s.fleet.clock s.last,
      s.fleet.hash.get (redisField C k) = some e.toPayload) ∧
    (s.last = some .release → s.fleet.hash.get (redisField C k) = none)

def Allowed (k : Key) (live : Option Entry) (v : KeyView) : Command → Prop
  | .hset e' => e'.key = k ∧ ∀ e ∈ live, e' = e ∨ ¬v.Acked
  | .hdel _ => ∀ e ∈ live, ¬v.Acked ∧ (v.pending = true ∨ v.writes ≠ 0)

instance (k : Key) (live : Option Entry) (v : KeyView) :
    (c : Command) → Decidable (Allowed k live v c)
  | .hset e' => inferInstanceAs (Decidable (e'.key = k ∧ ∀ e ∈ live, e' = e ∨ ¬v.Acked))
  | .hdel _ =>
      inferInstanceAs (Decidable (∀ e ∈ live, ¬v.Acked ∧ (v.pending = true ∨ v.writes ≠ 0)))

def Encodes (C : Codec) : KeyEvent → Prop
  | .sent r _ => C.marshals r.entry.toPayload = true
  | _ => True

instance (C : Codec) : (ev : KeyEvent) → Decidable (Encodes C ev)
  | .sent r _ => inferInstanceAs (Decidable (C.marshals r.entry.toPayload = true))
  | .quiet | .beganSet _ | .beganRelease | .finished _ _ | .took _ | .deleted => .isTrue trivial

structure InOrder (C : Codec) (k : Key) (s : DecidedStore) (a : Fleet.Act Unit) : Prop where
  allowed : ∀ c ∈ (s.fleet.command C a).map Prod.snd, c.touches C k →
    Allowed k (Begun.live s.fleet.clock s.last) (s.fleet.view k) c
  encodes : Encodes C (s.fleet.keyEvent C k a)
  delivered : s.fleet.keyEvent C k a = .deleted → (s.fleet.command C a).isSome = true

instance (C : Codec) (k : Key) (s : DecidedStore) (a : Fleet.Act Unit) :
    Decidable (InOrder C k s a) :=
  decidable_of_iff (_ ∧ _ ∧ _) ⟨fun h => ⟨h.1,h.2.1,h.2.2⟩,fun h => ⟨h.1,h.2,h.3⟩⟩

structure RecordBooks (live : Option Entry) (last : Option Begun) (st : KeyState)
    (writes : Multiset Write) : Prop where
  count : st.inflight = writes.card
  older : ∀ w ∈ writes, w.gen ≤ st.gen
  released : st.released = true →
    last = some .release ∧ st.pending = false ∧ ∀ w ∈ writes, w.gen < st.gen
  held : st.released = false → (∃ e, last = some (.set e)) ∧
    ∀ e ∈ live, st.entry = e ∧ ∀ w ∈ writes, w.gen = st.gen → w.entry = e

def Books (clock : Int) (last : Option Begun) (v : KeyView) : Prop :=
  match v.record with
  | none => v.writes = 0
  | some st => RecordBooks (Begun.live clock last) last st v.writes

section Lemmas

variable {clock : Int} {last : Option Begun} {v : KeyView} {live : Option Entry} {st : KeyState}
  {writes : Multiset Write}

variable {e : Entry} {r : Retry} {result : WriteResult}

theorem mem_live :
    e ∈ Begun.live clock last ↔ last = some (.set e) ∧ clock < e.untilAt := by
  unfold Begun.live
  constructor
  · intro h
    split at h
    · obtain ⟨hl,rfl⟩ := Run.guard_pos h
      exact ⟨rfl,hl⟩
    · cases h
  · rintro ⟨rfl,hl⟩
    exact if_pos hl

theorem live_mono {clock' : Int} (hle : clock ≤ clock')
    (h : e ∈ Begun.live clock' last) : e ∈ Begun.live clock last :=
  mem_live.mpr ⟨(mem_live.mp h).1,hle.trans_lt (mem_live.mp h).2⟩

theorem RecordBooks.mono {live' : Option Entry} (h : RecordBooks live last st writes)
    (hs : ∀ e ∈ live', e ∈ live) : RecordBooks live' last st writes :=
  { h with held := fun hr => ⟨(h.held hr).1,fun e he => (h.held hr).2 e (hs e he)⟩ }

theorem Books.mono {clock' : Int} (h : Books clock last v) (hle : clock ≤ clock') :
    Books clock' last v := by
  unfold Books at h ⊢
  split at h
  · exact h
  · exact h.mono fun e he => live_mono hle he

theorem Books.settle {dels : Nat} (h : RecordBooks (Begun.live clock last) last st writes) :
    Books clock last ⟨st.settled,writes,dels⟩ := by
  unfold Books KeyState.settled
  split_ifs with hg
  · have hc : (writes.card : Int) = 0 := h.count.symm.trans hg.2
    exact Multiset.card_eq_zero.mp (Int.natCast_eq_zero.mp hc)
  · exact h

theorem Books.state (h : Books clock last v) :
    v.state.inflight = v.writes.card ∧ ∀ w ∈ v.writes, w.gen ≤ v.state.gen := by
  unfold Books at h
  unfold KeyView.state
  cases hr : v.record with
  | none =>
    rw [hr] at h
    simp [h,KeyState.zero]
  | some st =>
    rw [hr] at h
    exact ⟨h.count,h.older⟩

theorem Books.record (h : Books clock last v) {w : Write} (hw : w ∈ v.writes) :
    ∃ st, v.record = some st ∧ RecordBooks (Begun.live clock last) last st v.writes := by
  unfold Books at h
  cases hr : v.record with
  | none =>
    rw [hr] at h
    rw [h] at hw
    cases hw
  | some st =>
    rw [hr] at h
    exact ⟨st,rfl,h⟩

theorem Books.of_record (h : Books clock last v) (hr : v.record = some st) :
    RecordBooks (Begun.live clock last) last st v.writes := by
  unfold Books at h
  rwa [hr] at h

theorem Books.intro (hr : v.record = some st)
    (h : RecordBooks (Begun.live clock last) last st v.writes) : Books clock last v := by
  unfold Books
  rwa [hr]

theorem Books.beganSet (h : Books clock last v) (e : Entry) :
    Books clock (some (.set e)) (v.apply (.beganSet e)) where
  count := by
    simp [KeyView.apply,KeyState.beginSet,h.state.1]
  older w hw := by
    rcases Multiset.mem_add.mp hw with hn | hold
    · rw [Multiset.mem_singleton.mp hn]
      exact le_rfl
    · exact (h.state.2 w hold).trans (Nat.le_succ _)
  released hr := nomatch hr
  held _ := by
    refine ⟨⟨e,rfl⟩,fun e' he => ?_⟩
    obtain rfl : e = e' := by
      cases (mem_live.mp he).1
      rfl
    refine ⟨rfl,fun w hw hg => ?_⟩
    rcases Multiset.mem_add.mp hw with hn | hold
    · rw [Multiset.mem_singleton.mp hn]
      rfl
    · have hle := h.state.2 w hold
      rw [hg] at hle
      exact absurd hle (Nat.not_succ_le_self _)

theorem Books.beganRelease (h : Books clock last v) :
    Books clock (some .release) (v.apply .beganRelease) := by
  refine Books.settle ⟨h.state.1,?_,?_,?_⟩
  · exact fun w hw => (h.state.2 w hw).trans (Nat.le_succ _)
  · exact fun _ => ⟨rfl,rfl,fun w hw => Nat.lt_succ_of_le (h.state.2 w hw)⟩
  · exact fun hr => nomatch hr

theorem forall_sent (P : Nat → Entry → Prop)
    (hr : r.unsent ∈ v.writes) (h : ∀ w ∈ v.writes, P w.gen w.entry) :
    ∀ w ∈ (v.apply (.sent r result)).writes, P w.gen w.entry := by
  intro w hw
  rcases Multiset.mem_add.mp hw with hn | hold
  · rw [Multiset.mem_singleton.mp hn]
    exact h r.unsent hr
  · exact h w (Multiset.mem_of_mem_erase hold)

theorem Books.sent (h : Books clock last v)
    (hr : r.unsent ∈ v.writes) : Books clock last (v.apply (.sent r result)) := by
  obtain ⟨st,hrc,hb⟩ := h.record hr
  refine Books.intro hrc ⟨?_,forall_sent (fun gen _ => gen ≤ st.gen) hr hb.older,?_,?_⟩
  · simp only [KeyView.apply]
    rw [hb.count,Multiset.singleton_add,Multiset.card_cons,Multiset.card_erase_add_one hr]
  · intro hre
    obtain ⟨hla,hp,hlt⟩ := hb.released hre
    exact ⟨hla,hp,forall_sent (fun gen _ => gen < st.gen) hr hlt⟩
  · intro hre
    obtain ⟨hset,hl⟩ := hb.held hre
    refine ⟨hset,fun e he => ⟨(hl e he).1,?_⟩⟩
    exact forall_sent (fun gen entry => gen = st.gen → entry = e) hr (hl e he).2

theorem finish_frame (st : KeyState) (e : Entry) (gen : Nat) (result : WriteResult) :
    (st.finish e gen result).1.inflight = st.inflight - 1 ∧
      (st.finish e gen result).1.gen = st.gen ∧
      (st.finish e gen result).1.released = st.released := by
  unfold KeyState.finish
  dsimp only
  split_ifs
  · exact ⟨rfl,rfl,rfl⟩
  · exact ⟨rfl,rfl,rfl⟩
  · cases result <;> exact ⟨rfl,rfl,rfl⟩

theorem finish_entry (st : KeyState) (e : Entry) (gen : Nat) (result : WriteResult) :
    (st.finish e gen result).1.entry = st.entry ∨
      (st.finish e gen result).1.entry = e ∧ gen = st.gen := by
  unfold KeyState.finish
  dsimp only
  split_ifs with ho hs
  · exact .inl rfl
  · exact .inl rfl
  · cases result with
    | propagation => exact .inr ⟨rfl,(not_not.mp hs).symm⟩
    | _ => exact .inl rfl

theorem finish_overtaken {gen : Nat} (hr : st.released = true) (hlt : gen < st.gen)
    (result : WriteResult) :
    (st.finish e gen result).1.pending = st.pending ∧
      (st.finish e gen result).2.compensate = true := by
  unfold KeyState.finish
  rw [if_pos ⟨hlt.ne',hr⟩]
  exact ⟨rfl,rfl⟩

theorem finish_current {gen : Nat} (hr : st.released = false)
    (ha : gen ≠ st.gen ∨ result = .propagation) :
    (st.finish e gen result).1.pending = true := by
  unfold KeyState.finish
  rw [if_neg (by simp [hr])]
  split_ifs with hs
  · rfl
  · rcases ha with hne | rfl
    · exact absurd (not_not.mp hs).symm hne
    · rfl

theorem Books.finished (h : Books clock last v)
    (hr : r.sent result ∈ v.writes) : Books clock last (v.apply (.finished r result)) := by
  obtain ⟨st,hrc,hb⟩ := h.record hr
  have hs : v.state = st := by rw [KeyView.state,hrc,Option.getD_some]
  obtain ⟨hin,hg,hre⟩ := finish_frame st r.entry r.gen result
  simp [KeyView.apply,hs]
  refine Books.settle ⟨?_,?_,?_,?_⟩
  · have hca := Multiset.card_erase_add_one hr
    rw [hin,hb.count]
    omega
  · rw [hg]
    exact fun w hw => hb.older w (Multiset.mem_of_mem_erase hw)
  · rw [hg,hre]
    intro hrl
    obtain ⟨hla,hp,hlt⟩ := hb.released hrl
    have hg' : r.gen < st.gen := hlt _ hr
    refine ⟨hla,?_,fun w hw => hlt w (Multiset.mem_of_mem_erase hw)⟩
    rw [(finish_overtaken hrl hg' result).1,hp]
  · rw [hg,hre]
    intro hrl
    obtain ⟨hset,hl⟩ := hb.held hrl
    refine ⟨hset,fun e he => ⟨?_,fun w hw => (hl e he).2 w (Multiset.mem_of_mem_erase hw)⟩⟩
    rcases finish_entry st r.entry r.gen result with hsa | ⟨hn,hc⟩
    · rw [hsa,(hl e he).1]
    · rw [hn]
      exact (hl e he).2 _ hr hc

inductive TakenAs (now : Int) (st : KeyState) : Option KeyState → Multiset Write → Prop
  | kept (h : st.pending = false) : TakenAs now st (some st) 0
  | retried (hp : st.pending = true) (hl : now < st.entry.untilAt) :
      TakenAs now st (some st.retried) {Retry.unsent ⟨st.entry,st.gen⟩}
  | expired (hp : st.pending = true) (hl : st.entry.untilAt ≤ now) :
      TakenAs now st st.expire.settled 0

theorem took_spec (now : Int) (hr : v.record = some st) :
    ∃ record writes, v.apply (.took now) = ⟨record,v.writes + writes,v.dels⟩ ∧
      TakenAs now st record writes := by
  refine ⟨st.taken now,KeyView.taken now (some st),?_,?_⟩
  · simp [KeyView.apply,hr]
  · simp [KeyState.taken,KeyView.taken]
    cases hp : st.pending with
    | false => simpa [hp] using @TakenAs.kept now st hp
    | true =>
      by_cases hl : now < st.entry.untilAt
      · simpa [hp,hl] using TakenAs.retried hp hl
      · simpa [hp,hl] using TakenAs.expired hp (not_lt.mp hl)

theorem took_none (now : Int) (hr : v.record = none) : v.apply (.took now) = v := by
  simp [KeyView.apply,KeyView.taken,KeyView.ext_iff,hr]

theorem RecordBooks.not_released (h : RecordBooks live last st writes) (hp : st.pending = true) :
    st.released = false := by
  cases hr : st.released with
  | false => rfl
  | true =>
    have hn := (h.released hr).2.1
    cases hp.symm.trans hn

theorem RecordBooks.not_released_of_live (h : RecordBooks live last st writes)
    (he : e ∈ Begun.live clock last) : st.released = false := by
  cases hr : st.released with
  | false => rfl
  | true =>
    have hl := (h.released hr).1
    cases ((mem_live.mp he).1).symm.trans hl

theorem RecordBooks.not_expired (h : RecordBooks (Begun.live clock last) last st writes) {now : Int}
    (hp : st.pending = true) (hn : now ≤ clock) (hl : st.entry.untilAt ≤ now) :
    e ∉ Begun.live clock last := by
  intro he
  have hli := (mem_live.mp he).2
  rw [← ((h.held (h.not_released hp)).2 e he).1] at hli
  exact absurd hli (not_lt.mpr (hl.trans hn))

theorem Books.took (h : Books clock last v) {now : Int} (hno : now ≤ clock) :
    Books clock last (v.apply (.took now)) := by
  cases hrc : v.record with
  | none => rwa [took_none now hrc]
  | some st =>
    have hb := h.of_record hrc
    obtain ⟨record,writes,heq,ht⟩ := took_spec now hrc
    rw [heq]
    cases ht with
    | kept hp => simpa [Books] using hb
    | retried hp hl =>
      have hre := hb.not_released hp
      obtain ⟨hset,hli⟩ := hb.held hre
      refine Books.intro rfl ⟨?_,?_,?_,?_⟩
      · simp [KeyState.retried,hb.count]
      · intro w hw
        rcases Multiset.mem_add.mp hw with hold | hn
        · exact hb.older w hold
        · rw [Multiset.mem_singleton.mp hn]
          exact le_rfl
      · intro hr
        cases hre.symm.trans hr
      · refine fun _ => ⟨hset,fun e he => ⟨(hli e he).1,fun w hw hg => ?_⟩⟩
        rcases Multiset.mem_add.mp hw with hold | hn
        · exact (hli e he).2 w hold hg
        · rw [Multiset.mem_singleton.mp hn]
          exact (hli e he).1
    | expired hp hl =>
      have hre := hb.not_released hp
      rw [add_zero]
      refine Books.settle ⟨hb.count,hb.older,?_,?_⟩
      · intro hr
        cases hre.symm.trans hr
      · exact fun _ => ⟨(hb.held hre).1,fun e he => absurd he (hb.not_expired hp hno hl)⟩

theorem Books.apply {k : Key} (h : Books clock last v) {ev : KeyEvent} (hf : ev.Fits k clock v) :
    Books clock (Begun.after last ev) (v.apply ev) := by
  cases ev with
  | quiet => exact h
  | beganSet e => exact h.beganSet e
  | beganRelease => exact h.beganRelease
  | sent r result => exact h.sent hf
  | finished r result => exact h.finished hf.2
  | took now => exact h.took hf
  | deleted => exact h

structure FieldBooks (clock : Int) (last : Option Begun) (v : KeyView) (field : Option Payload) :
    Prop where
  acked : ∀ e ∈ Begun.live clock last, v.Acked → field = some e.toPayload
  live : ∀ e ∈ Begun.live clock last,
    field = some e.toPayload ∨ v.pending = true ∨ v.writes ≠ 0
  gone : last = some .release → field = none ∨ 0 < v.dels ∨ v.writes ≠ 0

variable {field : Option Payload}

theorem FieldBooks.mono {clock' : Int} (h : FieldBooks clock last v field) (hle : clock ≤ clock') :
    FieldBooks clock' last v field :=
  ⟨fun e he => h.acked e (live_mono hle he),fun e he => h.live e (live_mono hle he),h.gone⟩

theorem FieldBooks.beganSet (hb : Books clock last v) (e : Entry) :
    FieldBooks clock (some (.set e)) (v.apply (.beganSet e)) field where
  acked e' _ hack := by
    obtain ⟨st,hst,w,hw,hg,ha⟩ := hack
    obtain rfl : v.state.beginSet e = st := Option.some.inj hst
    rcases Multiset.mem_add.mp hw with hne | hold
    · rw [Multiset.mem_singleton.mp hne] at ha
      cases ha
    · have hle := hb.state.2 w hold
      rw [hg] at hle
      exact absurd hle (Nat.not_succ_le_self _)
  live e' _ := .inr (.inr fun hn => by simp [KeyView.apply] at hn)
  gone h := nomatch h

theorem FieldBooks.beganRelease :
    FieldBooks clock (some .release) (v.apply .beganRelease) field where
  acked e he := by cases (mem_live.mp he).1
  live e he := by cases (mem_live.mp he).1
  gone _ := .inr (.inl (Nat.succ_pos _))

variable {dels : Nat}

theorem acked_of_settled (hr : v.record = some st) {st' : KeyState} (hg : st'.gen = st.gen)
    (hs : ∀ w ∈ writes, w.answered = true → w ∈ v.writes)
    (h : (⟨st'.settled,writes,dels⟩ : KeyView).Acked) : v.Acked := by
  obtain ⟨st₁,hst,w,hw,hg₁,ha⟩ := h
  rw [KeyState.eq_of_settled hst,hg] at hg₁
  exact ⟨st,hr,w,hs w hw ha,hg₁,ha⟩

theorem pending_settled (h : st.pending = true) :
    (⟨st.settled,writes,dels⟩ : KeyView).pending = true := by
  simp [KeyView.pending,KeyState.settled,h]

section

variable (h : FieldBooks clock last v field) (hb : Books clock last v)

include h hb

theorem FieldBooks.finished (hr : r.sent result ∈ v.writes) :
    FieldBooks clock last (v.apply (.finished r result)) field := by
  obtain ⟨st,hrc,hbo⟩ := hb.record hr
  have hs : v.state = st := by rw [KeyView.state,hrc,Option.getD_some]
  simp [KeyView.apply,hs]
  refine ⟨fun e he hac => ?_,fun e he => ?_,fun hl => ?_⟩
  · refine h.acked e he (acked_of_settled hrc (finish_frame st r.entry r.gen result).2.1 ?_ hac)
    exact fun w hw _ => Multiset.mem_of_mem_erase hw
  · have hre := hbo.not_released_of_live he
    by_cases ha : r.gen ≠ st.gen ∨ result = .propagation
    · exact .inr (.inl (pending_settled (finish_current hre ha)))
    · obtain ⟨hg,hrs⟩ := not_or.mp ha
      refine .inl (h.acked e he ⟨st,hrc,r.sent result,hr,not_not.mp hg,?_⟩)
      cases result with
      | propagation => exact absurd rfl hrs
      | _ => rfl
  · have hre : st.released = true := by
      cases hx : st.released with
      | true => rfl
      | false =>
        obtain ⟨⟨e,hset⟩,-⟩ := hbo.held hx
        cases hl.symm.trans hset
    have hg : r.gen < st.gen := (hbo.released hre).2.2 _ hr
    refine .inr (.inl ?_)
    simpa only [(finish_overtaken hre hg result).2,if_true] using Nat.succ_pos _

theorem FieldBooks.took {now : Int}
    (hno : now ≤ clock) : FieldBooks clock last (v.apply (.took now)) field := by
  cases hr : v.record with
  | none => rwa [took_none now hr]
  | some st =>
    obtain ⟨record,writes,heq,ht⟩ := took_spec now hr
    rw [heq]
    cases ht with
    | kept hp =>
      rwa [add_zero,← hr]
    | retried hp hl =>
      have hs : v.writes + {Retry.unsent ⟨st.entry,st.gen⟩} ≠ 0 := by
        rw [add_comm]
        exact Multiset.cons_ne_zero
      refine ⟨fun e he hac => h.acked e he ?_,fun _ _ => .inr (.inr hs),
        fun _ => .inr (.inr hs)⟩
      obtain ⟨st',hst,w,hw,hg,ha⟩ := hac
      obtain rfl : st.retried = st' := Option.some.inj hst
      rcases Multiset.mem_add.mp hw with hold | hne
      · exact ⟨st,hr,w,hold,hg,ha⟩
      · rw [Multiset.mem_singleton.mp hne] at ha
        cases ha
    | expired hp hl =>
      have hn := fun e => (hb.of_record hr).not_expired hp hno hl (e := e)
      rw [add_zero]
      exact ⟨fun e he => absurd he (hn e),fun e he => absurd he (hn e),h.gone⟩

theorem FieldBooks.plain {k : Key}
    {ev : KeyEvent} (hf : ev.Fits k clock v) (hs : ev.Silent) :
    FieldBooks clock (Begun.after last ev) (v.apply ev) field := by
  cases ev with
  | quiet => exact h
  | beganSet e => exact .beganSet hb e
  | beganRelease => exact .beganRelease
  | finished r result => exact h.finished hb hf.2
  | took now => exact h.took hb hf
  | sent r result | deleted => exact hs.elim

end

theorem sent_writes_ne_zero (v : KeyView) (r : Retry) (result : WriteResult) :
    (v.apply (.sent r result)).writes ≠ 0 := by
  simp [KeyView.apply]

theorem acked_of_sent (hb : Books clock last v)
    (hr : r.unsent ∈ v.writes) (he : e ∈ Begun.live clock last)
    (hac : (v.apply (.sent r result)).Acked) :
    v.Acked ∨ r.entry = e ∧ result ≠ .propagation := by
  obtain ⟨st,hst,w,hw,hg,ha⟩ := hac
  rcases Multiset.mem_add.mp hw with hn | hold
  · right
    obtain rfl := Multiset.mem_singleton.mp hn
    have hbo := hb.of_record hst
    have hre := hbo.not_released_of_live he
    refine ⟨((hbo.held hre).2 e he).2 r.unsent hr hg,?_⟩
    rintro rfl
    cases ha
  · exact .inl ⟨st,hst,w,Multiset.mem_of_mem_erase hold,hg,ha⟩

theorem FieldBooks.stored (hb : Books clock last v)
    (hr : r.unsent ∈ v.writes)
    (hok : ∀ e ∈ Begun.live clock last, r.entry = e ∨ ¬v.Acked) :
    FieldBooks clock last (v.apply (.sent r result)) (some r.entry.toPayload) := by
  refine ⟨fun e he ha => ?_,fun _ _ => .inr (.inr (sent_writes_ne_zero v r result)),
    fun _ => .inr (.inr (sent_writes_ne_zero v r result))⟩
  rcases hok e he with rfl | hn
  · rfl
  · rcases acked_of_sent hb hr he ha with hold | ⟨rfl,-⟩
    · exact absurd hold hn
    · rfl

theorem FieldBooks.unstored (h : FieldBooks clock last v field) (hb : Books clock last v)
    (hr : r.unsent ∈ v.writes)
    (hf : result = .propagation ∨ r.entry.untilAt ≤ clock) :
    FieldBooks clock last (v.apply (.sent r result)) field := by
  refine ⟨fun e he ha => ?_,fun _ _ => .inr (.inr (sent_writes_ne_zero v r result)),
    fun _ => .inr (.inr (sent_writes_ne_zero v r result))⟩
  rcases acked_of_sent hb hr he ha with hold | ⟨rfl,hne⟩
  · exact h.acked e he hold
  · rcases hf with heq | hl
    · exact absurd heq hne
    · exact absurd (mem_live.mp he).2 (not_lt.mpr hl)

theorem FieldBooks.removed {record : Option KeyState}
    (hok : ∀ e ∈ Begun.live clock last, ¬(⟨record,writes,dels⟩ : KeyView).Acked ∧
      ((⟨record,writes,dels⟩ : KeyView).pending = true ∨ writes ≠ 0)) (dels' : Nat) :
    FieldBooks clock last ⟨record,writes,dels'⟩ none :=
  ⟨fun e he ha => absurd ha (hok e he).1,fun e he => .inr (hok e he).2,fun _ => .inl rfl⟩

theorem FieldBooks.step {C : Codec} {k : Key} {ev : KeyEvent} {c : Option Command}
    (h : FieldBooks clock last v field) (hb : Books clock last v) (hfi : ev.Fits k clock v)
    (hc : KeyCommand C k clock ev c)
    (ha : ∀ c' ∈ c, c'.touches C k → Allowed k (Begun.live clock last) v c')
    (he : Encodes C ev) (hd : ev = .deleted → c.isSome = true) :
    FieldBooks clock (Begun.after last ev) (v.apply ev) (Fleet.fieldAfter C k field c) := by
  cases hc with
  | plain ev hs => exact h.plain hb hfi hs
  | stored r result hk =>
    have hf : Fleet.fieldAfter C k field (some (.hset r.entry)) = some r.entry.toPayload := by
      simp [Fleet.fieldAfter,hk]
    rw [hf]
    refine .stored hb hfi (ha _ rfl ?_).2
    simp [Command.touches,hk]
  | unstored r result hfa =>
    refine h.unstored hb hfi ?_
    rcases hfa with heq | hl | hn
    · exact .inl heq
    · exact .inr hl
    · cases hn.symm.trans he
  | undelivered => cases hd rfl
  | deleted =>
    have hf : Fleet.fieldAfter C k field (some (.hdel [redisField C k])) = none := by
      simp [Fleet.fieldAfter]
    rw [hf]
    exact .removed (ha _ rfl (List.mem_singleton_self _)) _
  | stores e hk =>
    simp [Fleet.fieldAfter]
    split_ifs with ht
    · exact absurd (ha _ rfl ht).1 hk
    · exact h
  | removes fields =>
    simp [Fleet.fieldAfter]
    split_ifs with ht
    · exact .removed (ha _ rfl ht) _
    · exact h

end Lemmas

structure StoreInv (C : Codec) (k : Key) (s : DecidedStore) : Prop where
  prepared : s.fleet.Prepared
  books : Books s.fleet.clock s.last (s.fleet.view k)
  field : FieldBooks s.fleet.clock s.last (s.fleet.view k) (s.fleet.hash.get (redisField C k))

theorem StoreInv.start {C : Codec} {k : Key} {clock : Int} (h : zeroTime ≤ clock) :
    StoreInv C k (start clock) where
  prepared := Fleet.prepared_start h
  books := rfl
  field := ⟨fun _ => (nomatch ·),fun _ => (nomatch ·),(nomatch ·)⟩

theorem StoreInv.step {C : Codec} {k : Key} {s s' : DecidedStore} (hi : StoreInv C k s)
    {a : Fleet.Act Unit} (hok : InOrder C k s a) (h : s.step C k a = some s') :
    StoreInv C k s' := by
  obtain ⟨f,hf,rfl⟩ := Option.map_eq_some_iff.mp h
  have hle := Fleet.clock_le hf
  have hfi := hi.prepared.fits (C := C) (k := k) a
  have hv := hi.prepared.view_step hf k
  have hd : s.fleet.keyEvent C k a = .deleted →
      ((s.fleet.command C a).map Prod.snd).isSome = true := by
    rw [Option.isSome_map]
    exact hok.delivered
  refine ⟨hi.prepared.step hf,?_,?_⟩
  · rw [hv]
    exact (hi.books.apply hfi).mono hle
  · rw [hv,Fleet.field_step hf]
    exact (hi.field.step hi.books hfi (Fleet.key_command s.fleet a) hok.allowed hok.encodes
      hd).mono hle

theorem StoreInv.converged {C : Codec} {k : Key} {s : DecidedStore} (hi : StoreInv C k s) :
    s.Converged C k := by
  intro hwr hde hpe
  refine ⟨fun e he => ?_,fun hl => ?_⟩
  · rcases hi.field.live e he with hf | hp | hw
    · exact hf
    · cases hpe.symm.trans hp
    · exact absurd hwr hw
  · rcases hi.field.gone hl with hf | hd | hw
    · exact hf
    · rw [hde] at hd
      cases hd
    · exact absurd hwr hw

theorem converged_of_inOrder (C : Codec) (k : Key) {clock : Int} (hclock : zeroTime ≤ clock)
    {s : DecidedStore} (h : Run.Reaches (step C k) (InOrder C k) (start clock) s) :
    s.Converged C k := by
  refine (h.invariant (StoreInv C k) (.start hclock) ?_).converged
  exact fun _ _ _ hi hok hs => hi.step hok hs

section Example

open PromisingFleet

theorem late_release_deletes_newer_drain :
    ∃ s, Run.Reaches (step asciiCodec opKey) (fun _ _ => True) (start 0) s ∧
      s.fleet.calls.len = 0 ∧ ¬s.Converged asciiCodec opKey := by
  obtain ⟨s,hs,hc,hw,hd,hp,hl,hcl,hf⟩ : ∃ s, Run.Reaches
      (step asciiCodec opKey) (fun _ _ => True) (start 0) s ∧ s.fleet.calls.len = 0 ∧
      (s.fleet.view opKey).writes = 0 ∧ (s.fleet.view opKey).dels = 0 ∧
      (s.fleet.view opKey).pending = false ∧ s.last = some (.set (drainUntil 100)) ∧
      s.fleet.clock = 0 ∧ s.fleet.hash.get (redisField asciiCodec opKey) = none :=
    Run.reaches ([.release 1 () opKey,.begin 1] ++ setDone 2 100 ++ [.hdel 1 .applied]) (by decide)
  refine ⟨s,hs,hc,fun hco => ?_⟩
  have hset := (hco hw hd hp).1 (drainUntil 100) (by rw [hl,hcl]; decide)
  cases hf.symm.trans hset

theorem overtaken_set_converges_on_release :
    ∃ s : DecidedStore, s.last = some .release ∧ (s.fleet.view opKey).writes = 0 ∧
      (s.fleet.view opKey).dels = 0 ∧ s.Converged asciiCodec opKey := by
  obtain ⟨s,hs,hl,hw,hd⟩ : ∃ s, Run.Reaches (step asciiCodec opKey)
      (InOrder asciiCodec opKey) (start 0) s ∧ s.last = some .release ∧
      (s.fleet.view opKey).writes = 0 ∧ (s.fleet.view opKey).dels = 0 :=
    Run.reaches [.set 1 () (drainUntil 100),.begin 1,.release 2 () opKey,.begin 2,
      .hdel 2 .applied,.send 1 .applied,.finish 1,.hdel 1 .applied] (by decide)
  exact ⟨s,hl,hw,hd,converged_of_inOrder asciiCodec opKey (by decide) hs⟩

end Example

end DecidedStore

end SageGateway.Drain
