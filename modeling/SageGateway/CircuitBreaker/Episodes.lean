import SageGateway.CircuitBreaker
import SageGateway.Lib.Run

namespace SageGateway.CircuitBreaker

open List Option GoMap

structure Published where
  key : Key
  publishedAt : Int
  now : Int
  state : BrokenState
  deriving DecidableEq

structure LoggedMarks where
  clock : Int
  replica : Replica
  overtaken : List Nat
  log : List Published

def MarkCall.breaksOn (k : Key) : MarkCall → Bool
  | .breaking j _ _ => j = k
  | _ => false

def MarkCall.passedOn (k : Key) : MarkCall → Bool
  | .passed j _ _ => j = k
  | _ => false

namespace MarkView

def breakingOn (v : MarkView) (k : Key) : Bool := v.calls.toList.any fun e => e.2.breaksOn k

def passedOn (v : MarkView) (k : Key) : List Nat :=
  (v.calls.toList.filter fun e => e.2.passedOn k).map Prod.fst

theorem mem_passedOn {v : MarkView} {n : Nat} {k : Key} {reason : GoString} {now : Int}
    (h : v.calls.get n = some (.passed k reason now)) : n ∈ v.passedOn k := by
  have hm := ((iterates_toList v.calls).mem_iff n _).mpr h
  exact List.mem_map.mpr ⟨_,mem_filter.mpr ⟨hm,by simp [MarkCall.passedOn]⟩,rfl⟩

theorem breakingOn_of_get {v : MarkView} {n : Nat} {k : Key} {now : Int} {st : BrokenState}
    (h : v.calls.get n = some (.breaking k now st)) : v.breakingOn k = true := by
  have hm := ((iterates_toList v.calls).mem_iff n _).mpr h
  exact List.any_eq_true.mpr ⟨_,hm,by simp [MarkCall.breaksOn]⟩

end MarkView

namespace LoggedMarks

inductive Act where
  | tick (t : Int)
  | call (a : Replica.Act)
  deriving DecidableEq

variable {F : Type} [Add F] [Div F] [NatCast F] [LT F] [DecidableLT F]

def start (clock : Int) : LoggedMarks := ⟨clock,.new,[],[]⟩

def overtakenAfter (v : MarkView) (overtaken : List Nat) : MarkEvent → List Nat
  | .called n _ _ _ => overtaken.filter (· ≠ n)
  | .passed n k _ _ => if v.breakingOn k then n :: overtaken else overtaken
  | .decided _ k _ _ => v.passedOn k ++ overtaken
  | _ => overtaken

def logAfter (clock : Int) (log : List Published) : MarkEvent → List Published
  | .published _ k now st => ⟨k,clock,now,st⟩ :: log
  | _ => log

def step (g : Gate F) (redis : Bool) (s : LoggedMarks) : Act → Option LoggedMarks
  | .tick t => if s.clock ≤ t then some { s with clock := t } else none
  | .call a =>
      (s.replica.step g redis s.clock a).map fun r =>
        let ev := s.replica.event g s.clock a
        ⟨s.clock,r,overtakenAfter s.replica.view s.overtaken ev,logAfter s.clock s.log ev⟩

def Undisturbed (overtaken : List Nat) : MarkEvent → Prop
  | .decided n _ _ _ => n ∉ overtaken
  | _ => True

instance (overtaken : List Nat) : (ev : MarkEvent) → Decidable (Undisturbed overtaken ev)
  | .decided n _ _ _ => inferInstanceAs (Decidable (n ∉ overtaken))
  | .quiet | .called .. | .ended _ | .passed .. | .published .. => .isTrue trivial

def Allowed (g : Gate F) (s : LoggedMarks) : Act → Prop
  | .tick _ => True
  | .call a => Undisturbed s.overtaken (s.replica.event g s.clock a)

instance (g : Gate F) (s : LoggedMarks) : (a : Act) → Decidable (Allowed g s a)
  | .tick _ => .isTrue trivial
  | .call a => inferInstanceAs (Decidable (Undisturbed s.overtaken (s.replica.event g s.clock a)))

structure CountsEpisodes (log : List Published) : Prop where
  noOverlap : log.Pairwise fun newer older =>
    newer.key = older.key → older.state.expiry ≤ newer.publishedAt
  risesAfterExpiry : log.Pairwise fun newer older =>
    newer.key = older.key → older.state.hitCount < newer.state.hitCount →
      older.state.expiry ≤ newer.now

def PastAll (log : List Published) (k : Key) (now : Int) : Prop :=
  ∀ p ∈ log, p.key = k → p.state.expiry ≤ now

structure Orderly (clock : Int) (v : MarkView) (overtaken : List Nat) (log : List Published) :
    Prop where
  read : ∀ n c now, v.calls.get n = some c → c.reading = some now → now ≤ clock
  top : ∀ p ∈ log, ∃ st, v.broken.get p.key = some st ∧ p.state.expiry ≤ st.expiry
  fresh : ∀ n k reason now, v.calls.get n = some (.passed k reason now) → n ∉ overtaken →
    PastAll log k now ∧ ∀ m now' st, v.calls.get m ≠ some (.breaking k now' st)
  sole : ∀ n k now st, v.calls.get n = some (.breaking k now st) →
    PastAll log k now ∧ now ≤ st.expiry ∧
      ∀ m now' st', v.calls.get m = some (.breaking k now' st') → m = n
  stamped : ∀ p ∈ log, p.now ≤ p.publishedAt
  separated : log.Pairwise fun newer older => newer.key = older.key → older.state.expiry ≤ newer.now

theorem orderly_start (clock : Int) : Orderly clock (start clock).replica.view [] [] where
  read n c now h := by cases h
  top p hp := by cases hp
  fresh n k reason now h := by cases h
  sole n k now st h := by cases h
  stamped p hp := by cases hp
  separated := .nil

namespace Orderly

variable {clock : Int} {v : MarkView} {overtaken : List Nat} {log : List Published}

section

variable (h : Orderly clock v overtaken log)

include h

theorem tick {t : Int} (ht : clock ≤ t) : Orderly t v overtaken log :=
  { h with read := fun n c now hg hr => (h.read n c now hg hr).trans ht }

theorem of_calls {calls : GoMap Nat MarkCall} {overtaken' : List Nat}
    (hr : ∀ n c now, calls.get n = some c → c.reading = some now → now ≤ clock)
    (hpa : ∀ n k reason now, calls.get n = some (.passed k reason now) → n ∉ overtaken' →
      PastAll log k now ∧ ∀ m now' st, v.calls.get m ≠ some (.breaking k now' st))
    (hb : ∀ n k now st, calls.get n = some (.breaking k now st) →
      v.calls.get n = some (.breaking k now st)) :
    Orderly clock { v with calls := calls } overtaken' log where
  __ := h
  read := hr
  fresh n k reason now hget hn := by
    obtain ⟨hp,hno⟩ := hpa n k reason now hget hn
    exact ⟨hp,fun m now' st hm => hno m now' st (hb m k now' st hm)⟩
  sole n k now st hget := by
    obtain ⟨hp,he,hu⟩ := h.sole n k now st (hb n k now st hget)
    exact ⟨hp,he,fun m now' st' hm => hu m now' st' (hb m k now' st' hm)⟩

theorem called (n : Nat) (k : Key) (reason : GoString) :
    Orderly clock { v with calls := v.calls.put n (.called k reason clock) }
      (overtaken.filter (· ≠ n)) log := by
  refine h.of_calls ?_ ?_ ?_
  · intro m c now hg hr
    rcases get_put_eq_some.mp hg with ⟨-,rfl⟩ | ⟨-,hold⟩
    · cases hr
      exact Int.le_refl _
    · exact h.read m c now hold hr
  · intro m j reason' now hg hm
    rcases get_put_eq_some.mp hg with ⟨-,hc⟩ | ⟨hne,hold⟩
    · cases hc
    · exact h.fresh m j reason' now hold fun hme =>
        hm (mem_filter.mpr ⟨hme,decide_eq_true hne⟩)
  · intro m j now st hg
    rcases get_put_eq_some.mp hg with ⟨-,hc⟩ | ⟨-,hold⟩
    · cases hc
    · exact hold

theorem ended (n : Nat) : Orderly clock { v with calls := v.calls.del n } overtaken log :=
  h.of_calls (fun m c now hg hr => h.read m c now (get_del_eq_some.mp hg).2 hr)
    (fun m j reason now hg hm => h.fresh m j reason now (get_del_eq_some.mp hg).2 hm)
    (fun _ _ _ _ hg => (get_del_eq_some.mp hg).2)

end

variable {now : Int} {k : Key} {n : Nat}

section

variable (h : Orderly clock v overtaken log)

include h

theorem pastAll_of_top
    (hn : ∀ st, v.broken.get k = some st → st.expiry ≤ now) : PastAll log k now := by
  rintro p hp rfl
  obtain ⟨st,hst,hle⟩ := h.top p hp
  exact hle.trans (hn st hst)

theorem passed {reason : GoString} (hg : v.calls.get n = some (.called k reason now))
    (hno : ∀ st, v.broken.get k = some st → st.expiry ≤ now) :
    Orderly clock { v with calls := v.calls.put n (.passed k reason now) }
      (if v.breakingOn k then n :: overtaken else overtaken) log := by
  refine h.of_calls ?_ ?_ ?_
  · intro m c now' hm hr
    rcases get_put_eq_some.mp hm with ⟨-,rfl⟩ | ⟨-,hold⟩
    · exact h.read n _ now' hg hr
    · exact h.read m c now' hold hr
  · intro m j reason' now' hm hn
    rcases get_put_eq_some.mp hm with ⟨rfl,hc⟩ | ⟨-,hold⟩
    · cases hc
      refine ⟨h.pastAll_of_top hno,fun i now'' st hi => hn ?_⟩
      rw [if_pos (MarkView.breakingOn_of_get hi)]
      exact .head _
    · refine h.fresh m j reason' now' hold fun hme => hn ?_
      split_ifs
      · exact mem_cons_of_mem n hme
      · exact hme
  · intro m j now' st hm
    rcases get_put_eq_some.mp hm with ⟨-,hc⟩ | ⟨-,hold⟩
    · cases hc
    · exact hold

theorem decided {reason : GoString} {st : BrokenState}
    (hg : v.calls.get n = some (.passed k reason now))
    (he : now ≤ st.expiry) (hn : n ∉ overtaken) :
    Orderly clock { v with calls := v.calls.put n (.breaking k now st) } (v.passedOn k ++ overtaken)
      log where
  __ := h
  read m c now' hm hread := by
    rcases get_put_eq_some.mp hm with ⟨-,rfl⟩ | ⟨-,hold⟩
    · exact h.read n _ now' hg hread
    · exact h.read m c now' hold hread
  fresh m j reason' now' hm hnot := by
    rcases get_put_eq_some.mp hm with ⟨-,hc⟩ | ⟨-,hold⟩
    · cases hc
    · have hj : j ≠ k := by
        rintro rfl
        exact hnot (mem_append_left _ (MarkView.mem_passedOn hold))
      obtain ⟨hp,hno⟩ := h.fresh m j reason' now' hold fun hme =>
        hnot (mem_append_right _ hme)
      refine ⟨hp,fun i now'' st' hi => ?_⟩
      rcases get_put_eq_some.mp hi with ⟨-,hc⟩ | ⟨-,hi⟩
      · cases hc
        exact hj rfl
      · exact hno i now'' st' hi
  sole m j now' st' hm := by
    obtain ⟨hp,hno⟩ := h.fresh n k reason now hg hn
    rcases get_put_eq_some.mp hm with ⟨rfl,hc⟩ | ⟨hne,hold⟩
    · cases hc
      refine ⟨hp,he,fun i now'' st'' hi => ?_⟩
      rcases get_put_eq_some.mp hi with ⟨hi,-⟩ | ⟨-,hi⟩
      · exact hi
      · exact absurd hi (hno i now'' st'')
    · obtain ⟨hp',he',hu⟩ := h.sole m j now' st' hold
      refine ⟨hp',he',fun i now'' st'' hi => ?_⟩
      rcases get_put_eq_some.mp hi with ⟨-,hc⟩ | ⟨-,hi⟩
      · cases hc
        exact absurd hold (hno m now' st')
      · exact hu i now'' st'' hi

theorem published {st : BrokenState} (hg : v.calls.get n = some (.breaking k now st))
    {calls : GoMap Nat MarkCall}
    (hc : ∀ m c, calls.get m = some c → c.reading ≠ none → m ≠ n ∧ v.calls.get m = some c) :
    Orderly clock ⟨calls,v.broken.put k st⟩ overtaken (⟨k,clock,now,st⟩ :: log) := by
  obtain ⟨hpa,he,hu⟩ := h.sole n k now st hg
  have hb : ∀ p ∈ log, p.key = k → p.state.expiry ≤ st.expiry := fun p hp hk =>
    (hpa p hp hk).trans he
  refine ⟨?_,?_,?_,?_,?_,?_⟩
  · intro m c now' hm hr
    exact h.read m c now' (hc m c hm (by simp [hr])).2 hr
  · intro p hp
    rcases mem_cons.mp hp with rfl | hp
    · exact ⟨st,get_put_self _ _ _,Int.le_refl _⟩
    · by_cases hk : p.key = k
      · exact ⟨st,by rw [hk,get_put_self],hb p hp hk⟩
      · obtain ⟨st',hs',hle⟩ := h.top p hp
        exact ⟨st',by rw [get_put_ne _ _ hk,hs'],hle⟩
  · intro m j reason now' hm hno
    have hold := (hc m _ hm (by simp [MarkCall.reading])).2
    obtain ⟨hp',hn⟩ := h.fresh m j reason now' hold hno
    have hj : j ≠ k := by
      rintro rfl
      exact hn n now st hg
    refine ⟨?_,fun i now'' st'' hi => ?_⟩
    · intro p hp hpj
      rcases mem_cons.mp hp with rfl | hp
      · exact absurd hpj.symm hj
      · exact hp' p hp hpj
    · exact hn i now'' st'' (hc i _ hi (by simp [MarkCall.reading])).2
  · intro m j now' st' hm
    obtain ⟨hne,hold⟩ := hc m _ hm (by simp [MarkCall.reading])
    obtain ⟨hp',he',hu'⟩ := h.sole m j now' st' hold
    have hj : j ≠ k := by
      rintro rfl
      exact hne (hu m now' st' hold)
    refine ⟨?_,he',fun i now'' st'' hi => ?_⟩
    · intro p hp hpj
      rcases mem_cons.mp hp with rfl | hp
      · exact absurd hpj.symm hj
      · exact hp' p hp hpj
    · exact hu' i now'' st'' (hc i _ hi (by simp [MarkCall.reading])).2
  · intro p hp
    rcases mem_cons.mp hp with rfl | hp
    · exact h.read n _ now hg rfl
    · exact h.stamped p hp
  · exact pairwise_cons.mpr ⟨fun p hp hk => hpa p hp hk.symm,h.separated⟩

theorem apply (redis : Bool) {ev : MarkEvent}
    (hf : ev.Fits clock v) (hok : Undisturbed overtaken ev) :
    Orderly clock (ev.apply redis v) (overtakenAfter v overtaken ev) (logAfter clock log ev) := by
  cases ev with
  | quiet => exact h
  | called n k reason now =>
    obtain ⟨-,rfl⟩ := hf
    exact h.called n k reason
  | ended n => exact h.ended n
  | passed n k reason now => exact h.passed hf.1 hf.2
  | decided n k now st =>
    obtain ⟨⟨reason,hg⟩,he⟩ := hf
    exact h.decided hg he hok
  | published n k now st =>
    refine h.published hf fun m c hm hr => ?_
    split_ifs at hm
    · rcases get_put_eq_some.mp hm with ⟨-,rfl⟩ | hold
      · exact absurd rfl hr
      · exact hold
    · exact get_del_eq_some.mp hm

theorem countsEpisodes : CountsEpisodes log where
  noOverlap := h.separated.imp_of_mem fun hn _ hs hk =>
    (hs hk).trans (h.stamped _ hn)
  risesAfterExpiry := h.separated.imp fun hs hk _ => hs hk

end

end Orderly

theorem orderly_step {g : Gate F} {redis : Bool} {s s' : LoggedMarks} {a : Act}
    (h : Orderly s.clock s.replica.view s.overtaken s.log) (hok : Allowed g s a)
    (hs : s.step g redis a = some s') :
    Orderly s'.clock s'.replica.view s'.overtaken s'.log := by
  cases a with
  | tick t =>
    obtain ⟨ht,rfl⟩ := Run.guard_pos hs
    exact h.tick ht
  | call a =>
    obtain ⟨r,hr,rfl⟩ := map_eq_some_iff.mp hs
    have hn := h.apply redis (Replica.event_fits hr) hok
    rw [← Replica.view_step hr] at hn
    exact hn

theorem breaks_count_episodes (g : Gate F) (redis : Bool) (clock : Int) {s : LoggedMarks}
    (h : Run.Reaches (step g redis) (Allowed g) (start clock) s) : CountsEpisodes s.log := by
  have ho := h.invariant (fun s => Orderly s.clock s.replica.view s.overtaken s.log)
    (orderly_start clock) fun _ _ _ hi hok hs => orderly_step hi hok hs
  exact ho.countsEpisodes

theorem concurrent_marks_escalate :
    let k : Key := ⟨"eth".toList,"a.example".toList⟩
    let acts := (range 10).flatMap (fun n => [Act.call (.mark n k []),.call (.check n)]) ++
      (range 10).map (fun n => .call (.gate n)) ++ [.call (.publish 4),.call (.publish 9)]
    let first : Published := ⟨k,0,0,⟨60 * GoTime.second,1,[]⟩⟩
    let second : Published := ⟨k,0,0,⟨120 * GoTime.second,2,[]⟩⟩
    (Run.run (step defaultGate false) (fun _ _ => True) (start 0) acts).map log = some
    [second,first] ∧
      ¬ CountsEpisodes [second,first] := by
  refine ⟨by decide +kernel,fun h => ?_⟩
  have hle := rel_of_pairwise_cons h.noOverlap (.head _) rfl
  exact absurd hle (by decide)

theorem break_after_expiry_counts :
    let k : Key := ⟨"eth".toList,"a.example".toList⟩
    let burst := fun (n : Nat) => (range 5).flatMap fun i =>
      [Act.call (.mark (n + i) k []),.call (.check (n + i)),.call (.gate (n + i))]
    let acts := burst 0 ++ [.call (.publish 4),.tick (90 * GoTime.second)] ++ burst 5 ++
      [.call (.mark 20 k []),.call (.publish 9),.call (.check 20)]
    ∃ s, Run.run (step defaultGate false) (Allowed defaultGate) (start 0) acts = some s ∧
      s.log.map (fun p => p.state.hitCount) = [2,1] ∧ CountsEpisodes s.log := by
  intro k burst acts
  exact Run.ends_and acts (by decide +kernel) fun _ hs _ =>
    breaks_count_episodes defaultGate false 0 hs

end LoggedMarks

structure Episode (F : Type) where
  now : Int
  hitCount : Nat
  expiry : Int
  line : F
  deriving DecidableEq

structure History (F : Type) where
  clock : Int
  breaker : Breaker
  episodes : List (Episode F)

namespace History

inductive Act where
  | success (now : Int)
  | mark (reason : GoString) (now : Int)
  deriving DecidableEq

def Act.now : Act → Int
  | .success now => now
  | .mark _ now => now

variable {F : Type} [Add F] [Div F] [NatCast F] [LT F] [DecidableLT F]

def start (clock : Int) : History F := ⟨clock,.new,[]⟩

def episodeOf (g : Gate F) (b : Breaker) (k : Key) (reason : GoString) (now : Int) :
    Option (Episode F) :=
  let out := markBroken g b k reason now
  if out.2 then
    (out.1.broken.get k).map fun st =>
      ⟨now,st.hitCount,st.expiry,(windowLocked g b.stats k now).threshold g now⟩
  else none

def step (g : Gate F) (k : Key) (s : History F) (a : Act) : Option (History F) :=
  if a.now < s.clock then none
  else match a with
    | .success now => some { s with clock := now, breaker := recordSuccess g s.breaker k now }
    | .mark reason now =>
        some ⟨now,(markBroken g s.breaker k reason now).1,
          (episodeOf g s.breaker k reason now).toList ++ s.episodes⟩

def Escalates (g : Gate F) (p e : Episode F) : Prop :=
  e.hitCount = p.hitCount + 1 ∧ e.line = g.failureRateThreshold + g.rebreakMargin

def Restarts (g : Gate F) (e : Episode F) : Prop :=
  e.hitCount = 1 ∧ e.line = g.failureRateThreshold

def sinceBreak (p e : Episode F) : Prop := e.now - p.now ≤ defaultEscalationMemory

def sinceRecovery (p e : Episode F) : Prop := e.now < p.expiry + defaultEscalationMemory

def Remembers (recent : Episode F → Episode F → Prop) (g : Gate F) : List (Episode F) → Prop
  | [] => True
  | [e] => Restarts g e
  | e :: p :: rest =>
      (recent p e → Escalates g p e) ∧ (¬ recent p e → Restarts g e) ∧ Remembers recent g
    (p :: rest)

def inGap (p e : Episode F) : Bool :=
  defaultEscalationMemory < e.now - p.now && e.now < p.expiry + defaultEscalationMemory

def entersGap (g : Gate F) (k : Key) (s : History F) : Act → Bool
  | .success _ => false
  | .mark reason now =>
      match episodeOf g s.breaker k reason now,s.episodes with
      | some e, p :: _ => inGap p e
      | _, _ => false

def OutsideGap (g : Gate F) (k : Key) (s : History F) (a : Act) : Prop := entersGap g k s a = false

instance (g : Gate F) (k : Key) (s : History F) (a : Act) : Decidable (OutsideGap g k s a) :=
  inferInstanceAs (Decidable (_ = _))

def KeepsBreaking (episodes : List (Episode F)) : Prop :=
  episodes.IsChain fun e p => sinceRecovery p e

end History

def OutcomeWindow.memory (w : OutcomeWindow) : Option (Int × Nat) :=
  w.lastEpisodeAt.map fun t => (t,w.lastHitCount)

def remembered (stats : GoMap Key OutcomeWindow) (k : Key) : Option (Int × Nat) :=
  (stats.get k).bind OutcomeWindow.memory

section Memory

variable {F : Type}

theorem memory_windowLocked (g : Gate F) (stats : GoMap Key OutcomeWindow) (k : Key) (now : Int) :
    (windowLocked g stats k now).memory = remembered stats k := by
  unfold windowLocked remembered
  cases stats.get k with
  | none => rfl
  | some w =>
    simp [OutcomeWindow.roll]
    split_ifs <;> rfl

theorem remembered_recordSuccess (g : Gate F) (b : Breaker) (k : Key) (now : Int) :
    remembered (recordSuccess g b k now).stats k = remembered b.stats k := by
  unfold recordSuccess
  split_ifs
  · rfl
  · rw [← memory_windowLocked g b.stats k now]
    simp [remembered,get_put_self]
    rfl

theorem recentlyBroken_iff {w : OutcomeWindow} {t : Int} {n : Nat} (h : w.memory = some (t,n))
    (now : Int) : w.recentlyBroken now = true ↔ now - t ≤ defaultEscalationMemory := by
  obtain ⟨t',ht,hp⟩ := map_eq_some_iff.mp h
  cases hp
  simp only [OutcomeWindow.recentlyBroken,ht,decide_eq_true_iff]
  exact GoTime.sub_le_iff (by decide) (by decide)

theorem recentlyBroken_of_none {w : OutcomeWindow} (h : w.memory = none) (now : Int) :
    w.recentlyBroken now = false := by
  rw [OutcomeWindow.recentlyBroken,map_eq_none_iff.mp h]

theorem lastHitCount_of_memory {w : OutcomeWindow} {t : Int} {n : Nat} (h : w.memory = some (t,n)) :
    w.lastHitCount = n := by
  obtain ⟨t',-,hp⟩ := map_eq_some_iff.mp h
  cases hp
  rfl

variable [Add F] [Div F] [NatCast F] [LT F] [DecidableLT F]

theorem shouldBreak_none {g : Gate F} {stats : GoMap Key OutcomeWindow} {k : Key} {now : Int}
    (h : (shouldBreak g stats k now).2 = none) :
    remembered (shouldBreak g stats k now).1 k = remembered stats k := by
  rw [← memory_windowLocked g stats k now]
  unfold shouldBreak at h ⊢
  simp only at h ⊢
  split_ifs at h ⊢
  simp [remembered,get_put_self]
  rfl

theorem shouldBreak_some {g : Gate F} {stats : GoMap Key OutcomeWindow} {k : Key} {now : Int}
    {hit : Nat} (h : (shouldBreak g stats k now).2 = some hit) :
    remembered (shouldBreak g stats k now).1 k = some (now,hit) ∧
      hit = (windowLocked g stats k now).nextHitCount now := by
  unfold shouldBreak at h ⊢
  simp only at h ⊢
  split_ifs at h ⊢
  cases h
  simp [remembered,get_put_self]
  exact ⟨rfl,rfl⟩

end Memory

namespace History

variable {F : Type} [Add F] {b : Breaker} {e : Episode F} {g : Gate F} {s : History F} {now : Int}
  {k : Key} {w : OutcomeWindow}

structure Recorded (g : Gate F) (k : Key) (s : History F) : Prop where
  memory : remembered s.breaker.stats k = s.episodes.head?.map fun e => (e.now,e.hitCount)
  timed : ∀ e ∈ s.episodes, e.expiry = e.now + escalateTTL (e.hitCount - 1)
  law : Remembers sinceBreak g s.episodes

theorem restarts_of_forgotten
    (hr : w.recentlyBroken e.now = false) (hh : e.hitCount = w.nextHitCount e.now)
    (hl : e.line = w.threshold g e.now) : Restarts g e := by
  rw [OutcomeWindow.nextHitCount,hr] at hh
  rw [OutcomeWindow.threshold,hr] at hl
  exact ⟨hh,hl⟩

theorem escalates_of_remembered {p : Episode F}
    (hm : w.memory = some (p.now,p.hitCount)) (hr : w.recentlyBroken e.now = true)
    (hh : e.hitCount = w.nextHitCount e.now) (hl : e.line = w.threshold g e.now) :
    Escalates g p e := by
  rw [OutcomeWindow.nextHitCount,hr,lastHitCount_of_memory hm] at hh
  rw [OutcomeWindow.threshold,hr] at hl
  exact ⟨hh,hl⟩

theorem recorded_start (g : Gate F) (k : Key) (clock : Int) : Recorded g k (start clock) where
  memory := rfl
  timed e he := by cases he
  law := trivial

abbrev GapFree (episodes : List (Episode F)) : Prop := episodes.IsChain fun e p => inGap p e = false

theorem remembers_sinceRecovery {episodes : List (Episode F)}
    (ht : ∀ e ∈ episodes, e.expiry = e.now + escalateTTL (e.hitCount - 1))
    (hg : GapFree episodes) (hl : Remembers sinceBreak g episodes) :
    Remembers sinceRecovery g episodes := by
  induction episodes with
  | nil => trivial
  | cons e episodes ih =>
    cases episodes with
    | nil => exact hl
    | cons p rest =>
      obtain ⟨he,hre,hold⟩ := hl
      obtain ⟨hp,hc⟩ := isChain_cons_cons.mp hg
      have hrs := ih (fun e' he' => ht e' (mem_cons_of_mem e he')) hc hold
      have hep := ht p (mem_cons_of_mem e (.head _))
      have hpo := escalateTTL_pos (p.hitCount - 1)
      simp [inGap] at hp
      refine ⟨fun hr => he ?_,fun hla => hre fun hr => ?_,hrs⟩
      · unfold sinceBreak
        unfold sinceRecovery at hr
        omega
      · unfold sinceRecovery at hla
        unfold sinceBreak at hr
        omega

theorem hitCount_of_keepsBreaking {rest : List (Episode F)}
    (hl : Remembers sinceRecovery g (e :: rest)) (h : KeepsBreaking (e :: rest)) :
    e.hitCount = rest.length + 1 := by
  induction rest generalizing e with
  | nil => exact hl.1
  | cons p rest ih =>
    obtain ⟨he,-,hold⟩ := hl
    obtain ⟨hr,hc⟩ := isChain_cons_cons.mp h
    rw [(he hr).1,ih hold hc,length_cons]

theorem remembers_cons
    {episodes : List (Episode F)} (hla : Remembers sinceBreak g episodes)
    (hm : w.memory = episodes.head?.map fun e => (e.now,e.hitCount))
    (hh : e.hitCount = w.nextHitCount e.now) (hl : e.line = w.threshold g e.now) :
    Remembers sinceBreak g (e :: episodes) := by
  cases episodes with
  | nil => exact restarts_of_forgotten (recentlyBroken_of_none hm e.now) hh hl
  | cons p rest =>
    have hif := recentlyBroken_iff hm e.now
    refine ⟨fun hr => ?_,fun hold => ?_,hla⟩
    · exact escalates_of_remembered hm (hif.mpr hr) hh hl
    · exact restarts_of_forgotten (Bool.eq_false_iff.mpr fun h => hold (hif.mp h)) hh hl

variable [Div F] [NatCast F] [LT F] [DecidableLT F]

theorem markBroken_of_none (reason : GoString)
    (ho : b.alreadyBroken k now = false) (h : (shouldBreak g b.stats k now).2 = none) :
    markBroken g b k reason now = ({ b with stats := (shouldBreak g b.stats k now).1 },false) := by
  unfold markBroken
  rw [if_neg (by simp [ho])]
  simp [h]

theorem markBroken_of_some (reason : GoString)
    {hit : Nat} (ho : b.alreadyBroken k now = false)
    (h : (shouldBreak g b.stats k now).2 = some hit) :
    markBroken g b k reason now =
    (({ b with stats := (shouldBreak g b.stats k now).1 }).publish k now
      (brokenState now hit reason),true) := by
  unfold markBroken
  rw [if_neg (by simp [ho])]
  simp [h]

theorem markBroken_of_broken (reason : GoString)
    (hb : b.alreadyBroken k now = true) : markBroken g b k reason now = (b,false) := by
  rw [markBroken,if_pos hb]

theorem markBroken_declined {reason : GoString}
    (h : episodeOf g b k reason now = none) :
    remembered (markBroken g b k reason now).1.stats k = remembered b.stats k := by
  cases hb : b.alreadyBroken k now with
  | true => rw [markBroken_of_broken reason hb]
  | false =>
    cases hbr : (shouldBreak g b.stats k now).2 with
    | none =>
      rw [markBroken_of_none reason hb hbr]
      exact shouldBreak_none hbr
    | some hit =>
      rw [episodeOf,markBroken_of_some reason hb hbr] at h
      simp [Breaker.publish] at h

theorem markBroken_broke {reason : GoString} (h : episodeOf g b k reason now = some e) :
    remembered (markBroken g b k reason now).1.stats k = some (e.now,e.hitCount) ∧
      e.hitCount = (windowLocked g b.stats k now).nextHitCount e.now ∧
      e.line = (windowLocked g b.stats k now).threshold g e.now ∧
      e.expiry = e.now + escalateTTL (e.hitCount - 1) := by
  cases hb : b.alreadyBroken k now with
  | true =>
    rw [episodeOf,markBroken_of_broken reason hb] at h
    cases h
  | false =>
    cases hbr : (shouldBreak g b.stats k now).2 with
    | none =>
      rw [episodeOf,markBroken_of_none reason hb hbr] at h
      cases h
    | some hit =>
      rw [episodeOf,markBroken_of_some reason hb hbr] at h
      simp [Breaker.publish,get_put_self] at h
      cases h
      rw [markBroken_of_some reason hb hbr]
      obtain ⟨hm,hn⟩ := shouldBreak_some hbr
      exact ⟨hm,hn,rfl,rfl⟩

theorem recorded_step {s' : History F} {a : Act} (h : Recorded g k s)
    (hst : s.step g k a = some s') : Recorded g k s' := by
  obtain ⟨-,hs⟩ := ite_none_left_eq_some.mp hst
  cases a with
  | success now =>
    cases hs
    exact { h with memory := (remembered_recordSuccess g s.breaker k now).trans h.memory }
  | mark reason now =>
    cases hs
    cases hep : episodeOf g s.breaker k reason now with
    | none => exact { h with memory := (markBroken_declined hep).trans h.memory }
    | some e =>
      obtain ⟨hm,hh,hl,he⟩ := markBroken_broke hep
      have hw := (memory_windowLocked g s.breaker.stats k now).trans h.memory
      refine ⟨hm,?_,remembers_cons h.law hw hh hl⟩
      intro e' he'
      rcases mem_cons.mp he' with rfl | hme
      · exact he
      · exact h.timed e' hme

theorem gapFree_step {s' : History F} {a : Act} (h : GapFree s.episodes)
    (hok : OutsideGap g k s a) (hst : s.step g k a = some s') : GapFree s'.episodes := by
  obtain ⟨-,hs⟩ := ite_none_left_eq_some.mp hst
  cases a with
  | success now =>
    cases hs
    exact h
  | mark reason now =>
    cases hs
    unfold OutsideGap entersGap at hok
    cases hep : episodeOf g s.breaker k reason now with
    | none => exact h
    | some e =>
      simp [hep] at hok
      cases hr : s.episodes with
      | nil => exact .singleton e
      | cons p rest =>
        rw [hr] at h hok
        exact .cons_cons hok h

theorem memory_runs_from_break (g : Gate F) (k : Key) (clock : Int)
    (h : Run.Reaches (step g k) (fun _ _ => True) (start clock) s) :
    Remembers sinceBreak g s.episodes :=
  (h.invariant (Recorded g k) (recorded_start g k clock) fun _ _ _ hi _ hs =>
    recorded_step hi hs).law

theorem rebreak_in_the_gap_restarts :
    let k : Key := ⟨"eth".toList,"a.example".toList⟩
    let late := 60 * GoTime.minute + 30 * GoTime.second
    ∃ s, Run.run (step defaultGate k) (fun _ _ => True) (start 0)
        (replicate 5 (.mark [] 0) ++ replicate 5 (.mark [] late)) = some s ∧
      s.episodes.map Episode.hitCount = [1,1] ∧ Remembers sinceBreak defaultGate s.episodes := by
  intro k late
  exact Run.ends_and _ (by decide +kernel) fun _ hs _ => memory_runs_from_break defaultGate k 0 hs

theorem memory_runs_from_recovery (g : Gate F) (k : Key) (clock : Int) {s : History F}
    (h : Run.Reaches (step g k) (OutsideGap g k) (start clock) s) :
    Remembers sinceRecovery g s.episodes ∧
      ∀ e rest, s.episodes = e :: rest → KeepsBreaking s.episodes →
        e.hitCount = rest.length + 1 ∧ (5 ≤ rest.length → e.expiry = e.now + defaultMaxTTL) := by
  have hin := h.invariant (fun s => Recorded g k s ∧ GapFree s.episodes)
    ⟨recorded_start g k clock,.nil⟩ fun s a s' hi hok hs =>
      ⟨recorded_step hi.1 hs,gapFree_step hi.2 hok hs⟩
  have hl := remembers_sinceRecovery hin.1.timed hin.2 hin.1.law
  refine ⟨hl,fun e rest he hk => ?_⟩
  rw [he] at hl hk
  have hh := hitCount_of_keepsBreaking hl hk
  refine ⟨hh,fun hc => ?_⟩
  have hep := hin.1.timed e (he ▸ (.head _))
  rw [hep,escalateTTL_capped (by omega)]

theorem break_after_memory_of_start_restarts :
    let k : Key := ⟨"eth".toList,"a.example".toList⟩
    let late := 60 * GoTime.minute + 30 * GoTime.second
    let first : Episode ℚ := ⟨0,1,60 * GoTime.second,1 / 5⟩
    let second : Episode ℚ := ⟨late,1,late + 60 * GoTime.second,1 / 5⟩
    (Run.run (step defaultGate k) (fun _ _ => True) (start 0)
        (replicate 5 (.mark [] 0) ++ replicate 5 (.mark [] late))).map episodes =
      some [second,first] ∧
    second.now < first.expiry + defaultEscalationMemory ∧ second.hitCount ≠ first.hitCount + 1 := by
  decide +kernel

theorem early_rebreak_escalates :
    let k : Key := ⟨"eth".toList,"a.example".toList⟩
    let soon := 10 * GoTime.minute
    ∃ s, Run.run (step defaultGate k) (OutsideGap defaultGate k) (start 0)
        (replicate 5 (.mark [] 0) ++ [.success soon] ++ replicate 5 (.mark [] soon)) =
          some s ∧
      s.episodes.map Episode.hitCount = [2,1] ∧ Remembers sinceRecovery defaultGate s.episodes := by
  intro k soon
  exact Run.ends_and _ (by decide +kernel) fun _ hs _ =>
    (memory_runs_from_recovery defaultGate k 0 hs).1

end History

end SageGateway.CircuitBreaker
