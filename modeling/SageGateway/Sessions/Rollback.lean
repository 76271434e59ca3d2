import SageGateway.Sessions
import SageGateway.Lib.Run

namespace SageGateway

open Option GoMap

structure FetchView where
  sessionCache : GoMap GoString HeadedSession
  refreshGroup : GoMap GoString Nat
  flights : GoMap Nat Flight

inductive FetchEvent where
  | quiet
  | answered (key : GoString) (session : HeadedSession)
  | stored (key : GoString) (session : HeadedSession)

namespace FetchView

def fly (v : FetchView) (id : Nat) (key : GoString) (stage : FetchStage) : FetchView :=
  { v with flights := v.flights.put id ⟨key,stage⟩ }

inductive Step (v : FetchView) : FetchEvent → FetchView → Prop
  | still : Step v .quiet v
  | opened {key : GoString} {id : Nat} (hkey : v.refreshGroup.get key = none)
      (hid : v.flights.get id = none) :
      Step v .quiet { v.fly id key .begun with refreshGroup := v.refreshGroup.put key id }
  | moved {key : GoString} {id : Nat} {stage next : FetchStage}
      (hid : v.flights.get id = some ⟨key,stage⟩) (hlive : stage.live = true)
      (hcarries : ∀ s, next.carries = some s → stage.carries = some s) :
      Step v .quiet (v.fly id key next)
  | answered {key : GoString} {id : Nat} {height : Int} (s : HeadedSession)
      (hid : v.flights.get id = some ⟨key,.asking height⟩) :
      Step v (.answered key s) (v.fly id key (.fetched height s))
  | stored {key : GoString} {id : Nat} {s : HeadedSession}
      (hid : v.flights.get id = some ⟨key,.storing s⟩) :
      Step v (.stored key s)
        { v.fly id key (.ending (some s)) with sessionCache := v.sessionCache.put key s }
  | closed {key : GoString} {id : Nat} {r : Option HeadedSession} {group : GoMap GoString Nat}
      (hid : v.flights.get id = some ⟨key,.ending r⟩)
      (hgroup : ∀ k, v.refreshGroup.get k ≠ some id → group.get k = v.refreshGroup.get k) :
      Step v .quiet { v.fly id key (.returned r) with refreshGroup := group }

theorem Step.same {v v' : FetchView} (h : v' = v) : Step v .quiet v' := by
  subst h
  exact .still

end FetchView

namespace SessionManager

def view (sm : SessionManager) : FetchView := ⟨sm.sessionCache,sm.refreshGroup,sm.flights⟩

@[simp] theorem view_fly (sm : SessionManager) (id : Nat) (key : GoString) (stage : FetchStage) :
    (sm.fly id key stage).view = sm.view.fly id key stage := rfl

def flightEvent (answer : Option ChainSession) (f : Flight) : FetchEvent :=
  match f.stage with
  | .asking _ =>
      match answer.bind HeadedSession.check with
      | some s => .answered f.key s
      | none => .quiet
  | .storing s => .stored f.key s
  | _ => .quiet

def event (sm : SessionManager) : Act → FetchEvent
  | .flight id answer _ => ((sm.flights.get id).map (flightEvent answer)).getD .quiet
  | _ => .quiet

variable {c : Caller} {key : GoString} {fresh n : Nat} {sm sm' : SessionManager}

theorem hold_view {height jitter : Int} {failed : Bool}
    (h : sm.hold key height failed jitter = some sm') : sm'.view = sm.view := by
  obtain ⟨-,rfl⟩ := Run.guard_pos h
  rfl

theorem forget_get {k : GoString} {id : Nat}
    (h : sm.refreshGroup.get k ≠ some id) :
    (sm.forget key id).get k = sm.refreshGroup.get k := by
  unfold forget
  split_ifs with hk
  · have hne : k ≠ key := by
      rintro rfl
      exact h hk
    exact get_del_ne _ hne
  · rfl

theorem doRefreshSession_view {id : Nat}
    {answer : Option ChainSession} {jitter : Int} {stage : FetchStage}
    (hid : sm.flights.get id = some ⟨key,stage⟩)
    (h : sm.doRefreshSession id key answer jitter stage = some sm') :
    FetchView.Step sm.view (flightEvent answer ⟨key,stage⟩) sm'.view := by
  cases stage with
  | begun =>
    cases h
    exact .moved hid rfl (by simp [FetchStage.carries])
  | asking height =>
    cases answer with
    | none =>
      cases h
      exact .moved hid rfl (by simp [FetchStage.carries])
    | some session =>
      cases hs : HeadedSession.check session with
      | none =>
        simp [doRefreshSession,hs,some.injEq] at h
        subst h
        simpa [flightEvent,hs] using .moved hid rfl (by simp [FetchStage.carries])
      | some s =>
        simp [doRefreshSession,hs,some.injEq] at h
        subst h
        simpa [flightEvent,hs] using .answered s hid
  | failed height =>
    obtain ⟨sm₁,hold,rfl⟩ := map_eq_some_iff.mp h
    rw [view_fly,hold_view hold]
    exact .moved hid rfl (by simp [FetchStage.carries])
  | fetched height s =>
    cases h
    exact .moved hid rfl (by simp [FetchStage.carries])
  | compared height s same =>
    cases same with
    | true =>
      obtain ⟨sm₁,hold,rfl⟩ := map_eq_some_iff.mp h
      rw [view_fly,hold_view hold]
      exact .moved hid rfl (by simp [FetchStage.carries])
    | false =>
      cases h
      exact .moved hid rfl (by simp [FetchStage.carries])
  | storing s =>
    cases h
    exact .stored hid
  | ending r =>
    cases h
    exact .closed hid fun k hk => forget_get hk
  | returned r => cases h

theorem join_view {want : Want}
    (h : sm.join n fresh key want = some sm') : FetchView.Step sm.view .quiet sm'.view := by
  unfold join at h
  split at h
  · cases h
    exact .still
  · rename_i hk
    obtain ⟨hf,rfl⟩ := Run.guard_neg h
    exact .opened hk (by simpa [has,view] using hf)

theorem scheduleBackgroundRefresh_view
    {s : HeadedSession} (h : sm.scheduleBackgroundRefresh n fresh key s = some sm') :
    sm'.view = sm.view := by
  unfold scheduleBackgroundRefresh at h
  split_ifs at h <;> cases h <;> rfl

section

variable (sm : SessionManager) (n : Nat) (key : GoString)

theorem getSession_view (s : HeadedSession) : (sm.getSession n key s).view = sm.view := by
  unfold getSession
  split_ifs <;> rfl

theorem currentSession_view (s : HeadedSession) : (sm.currentSession n key s).view = sm.view := by
  unfold currentSession
  split_ifs <;> rfl

theorem swapAsked_view (ended : HeadedSession)
    (height : Int) : (sm.swapAsked n key ended height).view = sm.view := by
  simp [swapAsked]
  split_ifs <;> rfl

end

theorem runCaller_view
    (h : sm.runCaller n fresh c = some sm') : FetchView.Step sm.view .quiet sm'.view := by
  cases c with
  | joining key want => exact join_view h
  | marking key s => exact .same (scheduleBackgroundRefresh_view h)
  | loaded key cached =>
    cases cached with
    | none => cases h; exact .still
    | some s => cases h; exact .same (getSession_view sm n key s)
  | dialing key cached =>
    cases cached with
    | none => cases h; exact .still
    | some s => cases h; exact .same (currentSession_view sm n key s)
  | swapping key ended height => cases h; exact .same (swapAsked_view sm n key ended height)
  | refreshing key want | scheduling key s =>
    simp [runCaller] at h
    split at h <;> cases h <;> exact .still
  | waiting id want =>
    simp [runCaller] at h
    split at h <;> cases h
    exact .still
  | getSession key | currentSession key | heldBack key want failed | releasing key =>
    cases h; exact .still
  | returned answer => cases h

theorem giveUp_view
    (h : sm.giveUp n c = some sm') : sm'.view = sm.view := by
  cases c with
  | waiting id want =>
    obtain ⟨-,rfl⟩ := Run.guard_pos h
    rfl
  | _ => cases h

theorem call_view
    (h : sm.call n c = some sm') : sm'.view = sm.view := by
  obtain ⟨-,rfl⟩ := Run.guard_neg h
  rfl

theorem step_view {a : Act} (h : sm.step a = some sm') :
    FetchView.Step sm.view (sm.event a) sm'.view := by
  cases a with
  | tick t =>
    obtain ⟨-,rfl⟩ := Run.guard_pos h
    exact .still
  | pollBlockHeight height | setGraceBlocks n => cases h; exact .still
  | getSession n serviceID appAddr | currentSession n serviceID appAddr => exact .same (call_view h)
  | caller n fresh =>
    obtain ⟨c,-,h⟩ := bind_eq_some_iff.mp h
    exact runCaller_view h
  | giveUp n =>
    obtain ⟨c,-,h⟩ := bind_eq_some_iff.mp h
    exact .same (giveUp_view h)
  | flight id answer jitter =>
    obtain ⟨f,hid,h⟩ := bind_eq_some_iff.mp h
    simpa [event,hid] using doRefreshSession_view hid h

end SessionManager

structure TrackedSessions where
  sm : SessionManager
  answered : GoMap GoString Int
  log : List (GoString × Int)

namespace TrackedSessions

def start (clock : Int) : TrackedSessions := ⟨.new clock,∅,[]⟩

def answeredAfter (answered : GoMap GoString Int) : FetchEvent → GoMap GoString Int
  | .answered key s => answered.put key s.endHeight
  | _ => answered

def logAfter (log : List (GoString × Int)) : FetchEvent → List (GoString × Int)
  | .stored key s => (key,s.endHeight) :: log
  | _ => log

def step (s : TrackedSessions) (a : SessionManager.Act) : Option TrackedSessions :=
  (s.sm.step a).map fun sm =>
    ⟨sm,answeredAfter s.answered (s.sm.event a),logAfter s.log (s.sm.event a)⟩

def NotBehind (answered : GoMap GoString Int) : FetchEvent → Prop
  | .answered key s => ((answered.get key).all fun last => last ≤ s.endHeight) = true
  | _ => True

instance (answered : GoMap GoString Int) : (ev : FetchEvent) → Decidable (NotBehind answered ev)
  | .answered _ _ => inferInstanceAs (Decidable (_ = true))
  | .quiet | .stored .. => .isTrue trivial

def Allowed (s : TrackedSessions) (a : SessionManager.Act) : Prop :=
  NotBehind s.answered (s.sm.event a)

instance (s : TrackedSessions) (a : SessionManager.Act) : Decidable (Allowed s a) :=
  inferInstanceAs (Decidable (NotBehind _ _))

def lastStored (log : List (GoString × Int)) (key : GoString) : Option Int :=
  (log.find? fun p => p.1 = key).map Prod.snd

structure NeverGoesBack (s : TrackedSessions) : Prop where
  follows : ∀ serviceID appAddr,
    (s.sm.sessionCache.get (sessionCacheKey serviceID appAddr)).map HeadedSession.endHeight =
      lastStored s.log (sessionCacheKey serviceID appAddr)
  ordered : s.log.Pairwise fun newer older => newer.1 = older.1 → older.2 ≤ newer.2

structure Forward (v : FetchView) (answered : GoMap GoString Int) (log : List (GoString × Int)) :
    Prop where
  sole : ∀ id f, v.flights.get id = some f → f.stage.live = true →
    v.refreshGroup.get f.key = some id
  pending : ∀ id f s, v.flights.get id = some f → f.stage.carries = some s →
    answered.get f.key = some s.endHeight
  logged : ∀ p ∈ log, ∃ e, answered.get p.1 = some e ∧ p.2 ≤ e
  follows : ∀ key, (v.sessionCache.get key).map HeadedSession.endHeight = lastStored log key
  ordered : log.Pairwise fun newer older => newer.1 = older.1 → older.2 ≤ newer.2

theorem forward_start (clock : Int) : Forward (start clock).sm.view ∅ [] where
  sole id f h := by cases h
  pending id f s h := by cases h
  logged p hp := by cases hp
  follows key := rfl
  ordered := .nil

theorem live_of_carries {stage : FetchStage} {s : HeadedSession} (h : stage.carries = some s) :
    stage.live = true := by
  cases stage <;> first | rfl | cases h

namespace Forward

variable {v : FetchView} {answered : GoMap GoString Int} {log : List (GoString × Int)}

variable {key : GoString} {id : Nat}

section

variable (h : Forward v answered log)

include h

theorem flight_unique {j : Nat} {f g : Flight}
    (hid : v.flights.get id = some f) (hj : v.flights.get j = some g) (hf : f.stage.live = true)
    (hg : g.stage.live = true) (hk : g.key = f.key) : j = id := by
  have hig := h.sole id f hid hf
  have hjg := h.sole j g hj hg
  rw [hk,hig] at hjg
  exact (some.inj hjg).symm

theorem pending_fly {next : FetchStage}
    (hn : ∀ s, next.carries = some s → answered.get key = some s.endHeight) (j : Nat)
    (g : Flight) (s : HeadedSession) (hj : (v.fly id key next).flights.get j = some g)
    (hs : g.stage.carries = some s) : answered.get g.key = some s.endHeight := by
  rcases get_put_eq_some.mp hj with ⟨rfl,rfl⟩ | ⟨hne,hj⟩
  · exact hn s hs
  · exact h.pending j g s hj hs

theorem opened (hk : v.refreshGroup.get key = none) (hid : v.flights.get id = none) :
    Forward
    { v.fly id key .begun with refreshGroup := v.refreshGroup.put key id } answered log where
  __ := h
  sole j g hj hg := by
    rcases get_put_eq_some.mp hj with ⟨rfl,rfl⟩ | ⟨hne,hj⟩
    · exact get_put_self _ _ _
    · have hgr := h.sole j g hj hg
      have ho : g.key ≠ key := by
        intro heq
        rw [heq,hk] at hgr
        cases hgr
      exact (get_put_ne _ _ ho).trans hgr
  pending := h.pending_fly nofun

theorem sole_fly {stage : FetchStage}
    (hid : v.flights.get id = some ⟨key,stage⟩) (hl : stage.live = true) (next : FetchStage)
    (j : Nat) (g : Flight) (hj : (v.fly id key next).flights.get j = some g)
    (hg : g.stage.live = true) : v.refreshGroup.get g.key = some j := by
  rcases get_put_eq_some.mp hj with ⟨rfl,rfl⟩ | ⟨hne,hj⟩
  · exact h.sole j ⟨key,stage⟩ hid hl
  · exact h.sole j g hj hg

theorem moved {stage next : FetchStage}
    (hid : v.flights.get id = some ⟨key,stage⟩) (hl : stage.live = true)
    (hc : ∀ s, next.carries = some s → stage.carries = some s) :
    Forward (v.fly id key next) answered log where
  __ := h
  sole := h.sole_fly hid hl next
  pending := h.pending_fly fun s hs => h.pending id ⟨key,stage⟩ s hid (hc s hs)

theorem answered_put {height : Int}
    {s : HeadedSession} (hid : v.flights.get id = some ⟨key,.asking height⟩)
    (hn : NotBehind answered (.answered key s)) :
    Forward (v.fly id key (.fetched height s)) (answered.put key s.endHeight) log where
  __ := h
  sole := h.sole_fly hid rfl _
  pending j g t hj ht := by
    rcases get_put_eq_some.mp hj with ⟨rfl,rfl⟩ | ⟨hne,hj⟩
    · cases ht
      exact get_put_self _ _ _
    · have ho : g.key ≠ key := fun hk =>
        hne (h.flight_unique hid hj rfl (live_of_carries ht) hk)
      exact (get_put_ne _ _ ho).trans (h.pending j g t hj ht)
  logged p hp := by
    obtain ⟨e,he,hle⟩ := h.logged p hp
    by_cases hk : p.1 = key
    · subst hk
      have hf : e ≤ s.endHeight := by simpa [NotBehind,he] using hn
      exact ⟨s.endHeight,get_put_self _ _ _,hle.trans hf⟩
    · exact ⟨e,(get_put_ne _ _ hk).trans he,hle⟩

theorem stored {s : HeadedSession} (hid : v.flights.get id = some ⟨key,.storing s⟩) :
    Forward { v.fly id key (.ending (some s)) with sessionCache := v.sessionCache.put key s }
      answered ((key,s.endHeight) :: log) where
  sole := h.sole_fly hid rfl _
  pending := h.pending_fly nofun
  logged p hp := by
    rcases List.mem_cons.mp hp with rfl | hp
    · exact ⟨s.endHeight,h.pending id _ s hid rfl,Int.le_refl _⟩
    · exact h.logged p hp
  follows k := by
    by_cases hk : k = key
    · subst hk
      simp [lastStored]
    · have hk' : key ≠ k := fun heq => hk heq.symm
      have hf := h.follows k
      simp [lastStored,hk'] at hf ⊢
      rwa [get_put_ne _ _ hk]
  ordered := by
    refine List.pairwise_cons.mpr ⟨fun p hp hke => ?_,h.ordered⟩
    obtain ⟨e,he,hle⟩ := h.logged p hp
    have hl : answered.get key = some s.endHeight := h.pending id _ s hid rfl
    have hke : key = p.1 := hke
    rw [hke,he] at hl
    cases hl
    exact hle

theorem closed {r : Option HeadedSession}
    {group : GoMap GoString Nat} (hid : v.flights.get id = some ⟨key,.ending r⟩)
    (hgr : ∀ k, v.refreshGroup.get k ≠ some id → group.get k = v.refreshGroup.get k) :
    Forward { v.fly id key (.returned r) with refreshGroup := group } answered log where
  __ := h
  sole j g hj hg := by
    rcases get_put_eq_some.mp hj with ⟨rfl,rfl⟩ | ⟨hne,hj⟩
    · cases hg
    · have ho := h.sole j g hj hg
      rwa [hgr g.key (by rw [ho]; exact fun heq => hne (some.inj heq))]
  pending := h.pending_fly nofun

theorem step {ev : FetchEvent} {v' : FetchView}
    (hs : FetchView.Step v ev v') (hok : NotBehind answered ev) :
    Forward v' (answeredAfter answered ev) (logAfter log ev) := by
  cases hs with
  | still => exact h
  | opened hk hid => exact h.opened hk hid
  | moved hid hl hc => exact h.moved hid hl hc
  | answered s hid => exact h.answered_put hid hok
  | stored hid => exact h.stored hid
  | closed hid hg => exact h.closed hid hg

end

end Forward

theorem forward_step (s : TrackedSessions) (a : SessionManager.Act) (s' : TrackedSessions)
    (h : Forward s.sm.view s.answered s.log) (hok : Allowed s a) (hs : step s a = some s') :
    Forward s'.sm.view s'.answered s'.log := by
  obtain ⟨sm,hsm,rfl⟩ := map_eq_some_iff.mp hs
  exact h.step (SessionManager.step_view hsm) hok

theorem forward_reaches {clock : Int} {s : TrackedSessions}
    (h : Run.Reaches step Allowed (start clock) s) : Forward s.sm.view s.answered s.log :=
  h.invariant (fun s => Forward s.sm.view s.answered s.log) (forward_start clock) forward_step

theorem cached_session_never_goes_back {clock : Int} {s : TrackedSessions}
    (h : Run.Reaches step Allowed (start clock) s) : NeverGoesBack s where
  follows serviceID appAddr := (forward_reaches h).follows (sessionCacheKey serviceID appAddr)
  ordered := (forward_reaches h).ordered

def sampleKey : GoString := sessionCacheKey "eth".toList "app".toList

def endingAt (height : Int) : ChainSession :=
  ⟨"session".toList,some ⟨"eth".toList,height⟩,[],none⟩

def flown (id : Nat) (answer : ChainSession) : List SessionManager.Act :=
  [.flight id none 0,.flight id (some answer) 0,.flight id none 0,.flight id none 0,
    .flight id none 0,.flight id none 0]

def coldFetch (answer : ChainSession) : List SessionManager.Act :=
  [.getSession 0 "eth".toList "app".toList,.caller 0 0,.caller 0 0,.caller 0 0,.caller 0 0] ++
    flown 0 answer

def graceRefresh (height : Int) (answer : ChainSession) : List SessionManager.Act :=
  [.setGraceBlocks 5,.pollBlockHeight height,.getSession 1 "eth".toList "app".toList,.caller 1 0,
    .caller 1 0,.caller 1 0,.caller 1 2,.caller 2 0,.caller 2 1] ++ flown 1 answer

def cachedEnd (s : TrackedSessions) : Option Int :=
  (s.sm.sessionCache.get sampleKey).map HeadedSession.endHeight

theorem rollover_keeps_newer_session :
    ∃ s, Run.Reaches step Allowed (start 0) s ∧ cachedEnd s = some 40 ∧
      s.log = [(sampleKey,40),(sampleKey,20)] ∧ NeverGoesBack s := by
  obtain ⟨s,hr,hc,hl⟩ : ∃ s, Run.Reaches step Allowed (start 0) s ∧
      cachedEnd s = some 40 ∧ s.log = [(sampleKey,40),(sampleKey,20)] :=
    Run.reaches (coldFetch (endingAt 20) ++ graceRefresh 21 (endingAt 40)) (by decide +kernel)
  exact ⟨s,hr,hc,hl,cached_session_never_goes_back hr⟩

theorem lagging_answer_replaces_newer_session :
    ∃ s, Run.Reaches step (fun _ _ => True) (start 0) s ∧ cachedEnd s = some 10 ∧
      s.log = [(sampleKey,10),(sampleKey,20)] ∧ ¬NeverGoesBack s := by
  obtain ⟨s,hr,hc,hl⟩ : ∃ s, Run.Reaches step (fun _ _ => True) (start 0) s ∧
      cachedEnd s = some 10 ∧ s.log = [(sampleKey,10),(sampleKey,20)] :=
    Run.reaches (coldFetch (endingAt 20) ++ graceRefresh 21 (endingAt 10)) (by decide +kernel)
  refine ⟨s,hr,hc,hl,fun hb => ?_⟩
  have ho := hb.ordered
  rw [hl] at ho
  have hle : (20 : Int) ≤ 10 := (List.pairwise_cons.mp ho).1 (sampleKey,20) (by simp) rfl
  omega

end TrackedSessions

end SageGateway
