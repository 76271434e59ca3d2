import SageGateway.ProbeStream.Position

namespace SageGateway

open List Option

namespace ProbeFeed

open OrderedLog

variable {R : Type} {C : ProbeReader} {window : StreamID} {s s' : ProbeFeed R}

def backlog (s : ProbeFeed R) : List (ProbeEntry R) :=
  match s.phase,s.resume with
  | .starting (.incl w),some r =>
      match s.inRange (.incl w) with
      | [] => s.arrived r
      | _ :: _ => []
  | _,_ => []

theorem backlog_eq {w r : StreamID} (hp : s.phase = .starting (.incl w))
    (hr : s.resume = some r) (hn : s.inRange (.incl w) = []) : s.backlog = s.arrived r := by
  rw [backlog,hp,hr]
  dsimp only
  rw [hn]

def FreshPhase (window : StreamID) (entries : List (ProbeEntry R)) (resume : Option StreamID) :
    ProbePhase R → Prop
  | .applying batch _ => (∀ m ∈ batch, window ≤ m.id) ∧
      (batch = [] → ∀ r, resume = some r → ∀ e ∈ entries, r < e.id → window ≤ e.id)
  | .blocked position _ => ∀ e ∈ entries, position < e.id → window ≤ e.id
  | _ => True

theorem FreshPhase.publish {window : StreamID} {entries entries' : List (ProbeEntry R)}
    {resume : Option StreamID} {phase : ProbePhase R} (h : FreshPhase window entries resume phase)
    (hen : ∀ e ∈ entries', e ∈ entries ∨ window ≤ e.id) :
    FreshPhase window entries' resume phase := by
  cases phase with
  | stopped | starting lastID => trivial
  | applying batch lastID =>
    refine ⟨h.1,fun hb r hr e he hlt => ?_⟩
    rcases hen e he with he | hle
    · exact h.2 hb r hr e he hlt
    · exact hle
  | blocked position lastID =>
    intro e he hlt
    rcases hen e he with he | hle
    · exact h e he hlt
    · exact hle

theorem freshPhase_xrange (hp : Placed C window s)
    (hok : s.backlog.isEmpty = true) (hx : s.xrange = some s') :
    FreshPhase window s'.entries s'.resume s'.phase := by
  obtain ⟨lastID,hne,hph,rfl⟩ := xrange_eq hx
  have hpl := hp.phase
  rw [hph] at hpl
  cases lastID with
  | dollar => exact absurd rfl hne
  | incl w =>
    obtain ⟨-,rfl,-⟩ := hpl
    refine ⟨fun m hm => of_decide_eq_true (mem_filter.mp hm).2,fun hn r hr e he hlt => ?_⟩
    -- nothing in the window: the position falls back to the resume id, however old it is
    have hme : e ∈ s.backlog := by
      rw [backlog_eq hph hr hn]
      exact mem_after.mpr ⟨he,hlt⟩
    rw [List.isEmpty_iff.mp hok] at hme
    cases hme
  | excl r =>
    obtain ⟨-,hre,hle⟩ := hpl
    refine ⟨fun m hm => ?_,fun hn r' hr' e he hlt => ?_⟩
    · exact le_trans hle (le_of_lt (of_decide_eq_true (mem_filter.mp hm).2))
    · obtain rfl := some.inj (hre.symm.trans hr')
      exact le_trans hle (le_of_lt hlt)

theorem freshPhase_xread (hp : Placed C window s)
    (h : FreshPhase window s.entries s.resume s.phase)
    (hx : s.xread = some s') :
    FreshPhase window s'.entries s'.resume s'.phase := by
  obtain ⟨lastID,hph,rfl⟩ := xread_eq hx
  have hpl := hp.phase
  rw [hph] at hpl h
  obtain ⟨-,rfl,-,-⟩ := hpl
  intro e he hlt
  cases hr : s.resume with
  | none =>
    rw [hr] at hlt
    exact absurd hlt (not_lt_of_ge (hp.newest e he))
  | some r =>
    rw [hr] at hlt
    exact h.2 rfl r hr e he hlt

theorem freshPhase_deliver
    (h : FreshPhase window s.entries s.resume s.phase)
    (hd : s.deliver = some s') :
    FreshPhase window s'.entries s'.resume s'.phase := by
  obtain ⟨position,lastID,hp,hne,rfl⟩ := deliver_eq hd
  rw [hp] at h
  refine ⟨fun m hm => ?_,fun hn => ?_⟩
  · obtain ⟨hme,hlt⟩ := mem_after.mp (mem_of_mem_take hm)
    exact h m hme hlt
  · exact absurd ((take_eq_nil_iff.mp hn).resolve_left nofun) hne

theorem freshPhase_timeout (hp : Placed C window s)
    (ht : s.timeout = some s') :
    FreshPhase window s'.entries s'.resume s'.phase := by
  obtain ⟨position,lastID,hph,hn,rfl⟩ := timeout_eq ht
  have hpl := hp.phase
  rw [hph] at hpl
  obtain ⟨-,-,-,hpo⟩ := hpl
  refine ⟨nofun,fun _ r hr e he hlt => ?_⟩
  have hm : e ∈ s.arrived position := mem_after.mpr ⟨he,hpo r hr ▸ hlt⟩
  rw [hn] at hm
  cases hm

end ProbeFeed

namespace LoggedFeed

open ProbeFeed OrderedLog

variable {R : Type} {C : ProbeReader} {s s' : LoggedFeed R}

structure Once (s : LoggedFeed R) : Prop where
  once : (s.applied.map fun a => a.1.id).Pairwise (· < ·)
  below : ∀ a ∈ s.applied, ∃ r, s.feed.resume = some r ∧ a.1.id ≤ r

theorem step_rest {a : ProbeAct R} (ha : a ≠ .apply) (hs : s.step C a = some s') :
    s'.applied = s.applied ∧ s'.feed.resume = s.feed.resume := by
  obtain ⟨feed,hf,rfl⟩ := map_eq_some_iff.mp hs
  cases a with
  | tick d =>
    cases hf
    exact ⟨rfl,rfl⟩
  | publish e trimmed =>
    obtain ⟨-,-,rfl⟩ := publish_eq hf
    exact ⟨rfl,rfl⟩
  | run =>
    obtain ⟨-,rfl⟩ := run_eq hf
    exact ⟨rfl,rfl⟩
  | xrange =>
    obtain ⟨_,-,-,rfl⟩ := xrange_eq hf
    exact ⟨rfl,rfl⟩
  | apply => exact absurd rfl ha
  | xread =>
    obtain ⟨_,-,rfl⟩ := xread_eq hf
    exact ⟨rfl,rfl⟩
  | deliver =>
    obtain ⟨_,_,-,-,rfl⟩ := deliver_eq hf
    exact ⟨rfl,rfl⟩
  | timeout =>
    obtain ⟨_,_,-,-,rfl⟩ := timeout_eq hf
    exact ⟨rfl,rfl⟩
  | fail =>
    obtain rfl := fail_eq hf
    exact ⟨rfl,rfl⟩

theorem step_apply (hs : s.step C .apply = some s') : ∃ m rest lastID,
    s.feed.phase = .applying (m :: rest) lastID ∧ s'.window = s.window ∧
    s'.feed = { s.feed with resume := some m.id, phase := .applying rest (some m.id) } ∧
    (s'.applied = s.applied ∨ s'.applied = s.applied ++ [(m,s.window)]) := by
  obtain ⟨feed,hf,rfl⟩ := map_eq_some_iff.mp hs
  obtain ⟨m,rest,lastID,hp,rfl⟩ := apply_eq hf
  refine ⟨m,rest,lastID,hp,?_⟩
  rw [note,noteApply_eq _ hp]
  split
  · exact ⟨rfl,rfl,.inr rfl⟩
  · exact ⟨rfl,rfl,.inl rfl⟩

theorem once_step {a : ProbeAct R} (hp : Placed C s.window s.feed) (h : Once s)
    (hs : s.step C a = some s') : Once s' := by
  by_cases ha : a = .apply
  · subst ha
    obtain ⟨m,rest,lastID,hph,-,hf,hap⟩ := step_apply hs
    have hpl := hp.phase
    rw [hph] at hpl
    have hab := (hpl.2.2.2 m (.head _)).2
    have hlt : ∀ a ∈ s.applied, a.1.id < m.id := by
      intro a ha
      obtain ⟨r,hr,hle⟩ := h.below a ha
      exact lt_of_le_of_lt hle (hab r hr)
    have hre : s'.feed.resume = some m.id := by rw [hf]
    rcases hap with hap | hap
    · exact ⟨hap ▸ h.once,fun a ha => ⟨m.id,hre,le_of_lt (hlt a (hap ▸ ha))⟩⟩
    · refine ⟨?_,fun a ha => ⟨m.id,hre,?_⟩⟩
      · rw [hap,map_append]
        refine pairwise_append.mpr ⟨h.once,pairwise_singleton _ _,fun x hx y hy => ?_⟩
        obtain ⟨a,ha,rfl⟩ := List.mem_map.mp hx
        rw [mem_singleton.mp hy]
        exact hlt a ha
      · rw [hap] at ha
        rcases mem_append.mp ha with ha | ha
        · exact le_of_lt (hlt a ha)
        · rw [mem_singleton.mp ha]
  · obtain ⟨hap,hre⟩ := step_rest ha hs
    exact ⟨hap ▸ h.once,hap ▸ hre ▸ h.below⟩

theorem applied_in_id_order {now : Int} {ok : LoggedFeed R → ProbeAct R → Prop}
    (h : Run.Reaches (step C) ok (start now) s) :
    Placed C s.window s.feed ∧ Once s := by
  refine h.invariant (fun s => Placed C s.window s.feed ∧ Once s)
    ⟨placed_start now,List.Pairwise.nil,fun _ h => by cases h⟩ fun _ _ _ hs _ hst => ?_
  exact ⟨placed_step hs.1 hst,once_step hs.1 hs.2 hst⟩

def NoBacklog (s : LoggedFeed R) : ProbeAct R → Prop
  | .xrange => s.feed.backlog.isEmpty = true
  | _ => True

instance (s : LoggedFeed R) : (a : ProbeAct R) → Decidable (NoBacklog s a)
  | .xrange => inferInstanceAs (Decidable (_ = true))
  | .tick _ | .publish .. | .run | .apply | .xread | .deliver | .timeout | .fail => .isTrue trivial

structure Fresh (s : LoggedFeed R) : Prop where
  applied : ∀ a ∈ s.applied, a.2 ≤ a.1.id
  phase : FreshPhase s.window s.feed.entries s.feed.resume s.feed.phase

theorem fresh_start (now : Int) : Fresh (start now : LoggedFeed R) where
  applied _ h := by cases h
  phase := trivial

theorem fresh_step {a : ProbeAct R} (hp : Placed C s.window s.feed) (h : Fresh s)
    (hok : NoBacklog s a) (hs : s.step C a = some s') : Fresh s' := by
  by_cases ha : a = .apply
  · subst ha
    obtain ⟨m,rest,lastID,hph,hw,hf,hap⟩ := step_apply hs
    have hfr := h.phase
    rw [hph] at hfr
    have hm := hfr.1 m (.head _)
    refine ⟨fun a ha => ?_,?_⟩
    · rcases hap with hap | hap
      · exact h.applied a (hap ▸ ha)
      · rw [hap] at ha
        rcases mem_append.mp ha with ha | ha
        · exact h.applied a ha
        · rwa [mem_singleton.mp ha]
    · rw [hw,hf]
      refine ⟨fun m' hm' => hfr.1 m' (mem_cons_of_mem m hm'),fun _ r hr e _ hlt => ?_⟩
      cases hr
      exact le_trans hm (le_of_lt hlt)
  · refine ⟨(step_rest ha hs).1 ▸ h.applied,?_⟩
    obtain ⟨feed,hf,rfl⟩ := map_eq_some_iff.mp hs
    cases a with
    | tick d =>
      cases hf
      exact h.phase
    | publish e trimmed =>
      obtain ⟨-,hms,rfl⟩ := publish_eq hf
      refine h.phase.publish fun x hx => ?_
      rcases mem_append.mp (mem_of_mem_drop hx) with hx | hx
      · exact .inl hx
      · rw [mem_singleton.mp hx]
        exact .inr (hp.early e.id hms)
    | run =>
      obtain ⟨-,rfl⟩ := run_eq hf
      trivial
    | xrange => exact freshPhase_xrange hp hok hf
    | apply => exact absurd rfl ha
    | xread => exact freshPhase_xread hp h.phase hf
    | deliver => exact freshPhase_deliver h.phase hf
    | timeout => exact freshPhase_timeout hp hf
    | fail =>
      obtain rfl := fail_eq hf
      trivial

theorem probe_results_applied_once_within_window {now : Int}
    (h : Run.Reaches (step C) NoBacklog (start now) s) :
    (s.applied.map fun a => a.1.id).Nodup ∧ ∀ a ∈ s.applied, a.2 ≤ a.1.id := by
  have hf : Placed C s.window s.feed ∧ Fresh s :=
    h.invariant (fun s => Placed C s.window s.feed ∧ Fresh s)
      ⟨placed_start now,fresh_start now⟩ fun _ _ _ hs hok hst =>
        ⟨placed_step hs.1 hst,fresh_step hs.1 hs.2 hok hst⟩
  exact ⟨(applied_in_id_order h).2.once.imp fun hlt => ne_of_lt hlt,hf.2.applied⟩

def follower : ProbeReader := ⟨"follower-1".toList,1000000000⟩

def probed (ms seq : Nat) : ProbeEntry Nat := ⟨⟨ms,seq⟩,some ("leader-1".toList,seq)⟩

def readOnce : List (ProbeAct Nat) := [.publish (probed 10000 0) 0,.run,.xrange,.apply,.xread,.fail]

theorem empty_window_applies_the_backlog :
    ∃ s : LoggedFeed Nat, Run.Reaches (step follower) (fun _ _ => True) (start 10000000000) s ∧
      ∃ a ∈ s.applied, a.1.id < a.2 :=
  Run.reaches (readOnce ++ [.publish (probed 10000 1) 0,.tick 3000000000,.run,.xrange,.xread,
    .deliver,.apply]) (by decide +kernel)

theorem restart_applies_only_the_new_entry :
    ∃ s : LoggedFeed Nat, Run.Reaches (step follower) NoBacklog (start 10000000000) s ∧
      s.applied.length = 2 ∧ (s.applied.map fun a => a.1.id).Nodup ∧
      ∀ a ∈ s.applied, a.2 ≤ a.1.id :=
  Run.reaches_and (readOnce ++ [.tick 3000000000,.publish (probed 13000 0) 0,.run,.xrange,.apply])
    (by decide +kernel) fun _ hr _ => probe_results_applied_once_within_window hr

end LoggedFeed

end SageGateway
