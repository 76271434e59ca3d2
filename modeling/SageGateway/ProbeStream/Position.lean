import SageGateway.ProbeStream

namespace SageGateway

open List Option

namespace ProbeFeed

open OrderedLog

variable {R : Type} {C : ProbeReader} {window : StreamID} {s s' : ProbeFeed R}

def PhasePlaced (C : ProbeReader) (window newest : StreamID) (resume : Option StreamID) :
    ProbePhase R → Prop
  | .stopped => True
  | .starting .dollar => True
  | .starting (.incl w) => 0 < C.replay ∧ w = window ∧ ∀ r, resume = some r → r < w
  | .starting (.excl r) => 0 < C.replay ∧ resume = some r ∧ window ≤ r
  | .applying batch lastID =>
      0 < C.replay ∧ lastID = resume ∧ Ordered ProbeEntry.id batch ∧
        ∀ m ∈ batch, m.id ≤ newest ∧ ∀ r, resume = some r → r < m.id
  | .blocked position lastID =>
      0 < C.replay ∧ lastID = resume ∧ position ≤ newest ∧ ∀ r, resume = some r → position = r

structure Placed (C : ProbeReader) (window : StreamID) (s : ProbeFeed R) : Prop where
  ordered : Ordered ProbeEntry.id s.entries
  newest : ∀ e ∈ s.entries, e.id ≤ s.newest
  resumed : ∀ r, s.resume = some r → r ≤ s.newest ∧ 0 < C.replay
  early : ∀ id : StreamID, unixMilli s.now ≤ id.ms → window ≤ id
  phase : PhasePlaced C window s.newest s.resume s.phase

theorem placed_start (now : Int) : Placed C ⟨0,0⟩ (start now : ProbeFeed R) where
  ordered := List.Pairwise.nil
  newest _ h := by cases h
  resumed _ h := by cases h
  early _ _ := StreamID.le_of_ms_le rfl (Nat.zero_le _)
  phase := trivial

theorem Placed.tick (h : Placed C window s) (d : Nat) :
    Placed C window { s with now := s.now + d } where
  __ := h
  early id hid := h.early id (Nat.le_trans
    (unixMilli_le (Int.le_add_of_nonneg_right (Int.natCast_nonneg d))) hid)

theorem PhasePlaced.publish {window newest id : StreamID} {resume : Option StreamID}
    {phase : ProbePhase R} (h : PhasePlaced C window newest resume phase) (hlt : newest < id) :
    PhasePlaced C window id resume phase := by
  cases phase with
  | stopped => trivial
  | starting lastID => cases lastID <;> exact h
  | applying batch lastID =>
    obtain ⟨hre,hl,hb,hm⟩ := h
    exact ⟨hre,hl,hb,fun m hme => ⟨le_of_lt (lt_of_le_of_lt (hm m hme).1 hlt),
      (hm m hme).2⟩⟩
  | blocked position lastID =>
    obtain ⟨hre,hl,hp,hr⟩ := h
    exact ⟨hre,hl,le_of_lt (lt_of_le_of_lt hp hlt),hr⟩

theorem Placed.publish {e : ProbeEntry R} {trimmed : Nat}
    (h : Placed C window s) (hp : s.publish e trimmed = some s') :
    Placed C window s' := by
  obtain ⟨hlt,-,rfl⟩ := publish_eq hp
  have hb : ∀ a ∈ s.entries, a.id < e.id := fun a ha =>
    lt_of_le_of_lt (h.newest a ha) hlt
  refine ⟨?_,fun a ha => ?_,fun r hr => ?_,h.early,h.phase.publish hlt⟩
  · exact (h.ordered.push hb).sublist (drop_sublist _ _)
  · rcases mem_append.mp (mem_of_mem_drop ha) with ha | ha
    · exact le_of_lt (hb a ha)
    · exact le_of_eq (congrArg ProbeEntry.id (mem_singleton.mp ha))
  · exact ⟨le_of_lt (lt_of_le_of_lt (h.resumed r hr).1 hlt),(h.resumed r hr).2⟩

theorem rangeStart_placed {now : Int} {resume : Option StreamID} {newest : StreamID}
    (hr : ∀ r, resume = some r → 0 < C.replay) :
    PhasePlaced C (windowStart C now) newest resume
      (.starting (rangeStart C now resume) : ProbePhase R) := by
  unfold rangeStart replayID
  by_cases hC : C.replay ≤ 0
  · rw [if_pos hC]
    cases resume with
    | none => trivial
    | some r => exact absurd (hr r rfl) (Int.not_lt.mpr hC)
  · rw [if_neg hC]
    have hp : 0 < C.replay := Int.not_le.mp hC
    cases resume with
    | none => exact ⟨hp,rfl,nofun⟩
    | some r =>
      dsimp only
      split
      · rename_i hb
        refine ⟨hp,rfl,fun r' hr' => ?_⟩
        rw [← some.inj hr']
        exact streamIDBefore_iff.mp hb
      · rename_i hb
        exact ⟨hp,rfl,not_lt.mp fun hlt => hb (streamIDBefore_iff.mpr hlt)⟩

section

variable (h : Placed C window s)

include h

theorem Placed.run (hr : s.run C = some s') : Placed C (windowStart C s.now) s' := by
  obtain ⟨-,rfl⟩ := run_eq hr
  refine { h with
    early := fun id hid => ?_
    phase := rangeStart_placed fun r hr => (h.resumed r hr).2 }
  refine StreamID.le_of_ms_le rfl (Nat.le_trans ?_ hid)
  refine unixMilli_le ?_
  split
  · exact Int.le_refl _
  · exact Int.sub_le_self _ (Int.le_of_lt (Int.not_le.mp ‹_›))

theorem Placed.xrange (hx : s.xrange = some s') : Placed C window s' := by
  obtain ⟨lastID,hne,hph,rfl⟩ := xrange_eq hx
  have hp := h.phase
  rw [hph] at hp
  refine { h with phase := ?_ }
  have hb : Ordered ProbeEntry.id (s.inRange lastID) :=
    h.ordered.sublist filter_sublist
  cases lastID with
  | dollar => exact absurd rfl hne
  | incl w =>
    obtain ⟨hre,-,hr⟩ := hp
    refine ⟨hre,rfl,hb,fun m hm => ?_⟩
    obtain ⟨hme,hc⟩ := mem_filter.mp hm
    exact ⟨h.newest m hme,fun r hrs => lt_of_lt_of_le (hr r hrs) (of_decide_eq_true hc)⟩
  | excl r =>
    obtain ⟨hre,hrs,-⟩ := hp
    refine ⟨hre,rfl,hb,fun m hm => ?_⟩
    obtain ⟨hme,hc⟩ := mem_filter.mp hm
    refine ⟨h.newest m hme,fun r' hr' => ?_⟩
    rw [← some.inj (hrs.symm.trans hr')]
    exact of_decide_eq_true hc

theorem Placed.apply (ha : s.apply = some s') : Placed C window s' := by
  obtain ⟨m,rest,lastID,hph,rfl⟩ := apply_eq ha
  have hp := h.phase
  rw [hph] at hp
  obtain ⟨hre,-,hb,hm⟩ := hp
  obtain ⟨hh,hrs⟩ := pairwise_cons.mp hb
  refine ⟨h.ordered,h.newest,fun r hr => ?_,h.early,hre,rfl,hrs,fun m' hm' => ?_⟩
  · rw [← some.inj hr]
    exact ⟨(hm m (.head _)).1,hre⟩
  · refine ⟨(hm m' (mem_cons_of_mem m hm')).1,fun r hr => ?_⟩
    rw [← some.inj hr]
    exact hh m' hm'

theorem Placed.xread (hx : s.xread = some s') : Placed C window s' := by
  obtain ⟨lastID,hph,rfl⟩ := xread_eq hx
  have hp := h.phase
  rw [hph] at hp
  obtain ⟨hre,rfl,-,-⟩ := hp
  refine ⟨h.ordered,h.newest,h.resumed,h.early,hre,rfl,?_,fun r hr => ?_⟩
  · cases hrs : s.resume with
    | none => exact le_refl _
    | some r => exact (h.resumed r hrs).1
  · rw [hr]
    rfl

theorem Placed.deliver (hd : s.deliver = some s') : Placed C window s' := by
  obtain ⟨position,lastID,hph,-,rfl⟩ := deliver_eq hd
  have hp := h.phase
  rw [hph] at hp
  obtain ⟨hre,hl,-,hpo⟩ := hp
  refine ⟨h.ordered,h.newest,h.resumed,h.early,hre,hl,?_,fun m hm => ?_⟩
  · exact (h.ordered.sublist filter_sublist).sublist (take_sublist _ _)
  · obtain ⟨hme,hlt⟩ := mem_after.mp (mem_of_mem_take hm)
    exact ⟨h.newest m hme,fun r hr => hpo r hr ▸ hlt⟩

theorem Placed.timeout (ht : s.timeout = some s') : Placed C window s' := by
  obtain ⟨position,lastID,hph,-,rfl⟩ := timeout_eq ht
  have hp := h.phase
  rw [hph] at hp
  exact ⟨h.ordered,h.newest,h.resumed,h.early,hp.1,hp.2.1,List.Pairwise.nil,nofun⟩

theorem Placed.fail (hf : s.fail = some s') : Placed C window s' := by
  obtain rfl := fail_eq hf
  exact { h with phase := trivial }

end

end ProbeFeed

namespace LoggedFeed

open ProbeFeed (Placed)

variable {R : Type} {C : ProbeReader} {s s' : LoggedFeed R}

theorem noteApply_feed (feed : ProbeFeed R) : (s.noteApply C feed).feed = feed ∧
    (s.noteApply C feed).window = s.window := by
  unfold noteApply
  split
  · split <;> exact ⟨rfl,rfl⟩
  · exact ⟨rfl,rfl⟩

theorem placed_step {a : ProbeAct R} (h : Placed C s.window s.feed)
    (hs : s.step C a = some s') : Placed C s'.window s'.feed := by
  obtain ⟨feed,hfe,rfl⟩ := map_eq_some_iff.mp hs
  cases a with
  | tick d =>
    cases hfe
    exact h.tick d
  | publish e trimmed => exact h.publish hfe
  | run => exact h.run hfe
  | xrange => exact h.xrange hfe
  | apply =>
    obtain ⟨hf,hw⟩ := noteApply_feed (C := C) (s := s) feed
    simpa [note,hf,hw] using h.apply hfe
  | xread => exact h.xread hfe
  | deliver => exact h.deliver hfe
  | timeout => exact h.timeout hfe
  | fail => exact h.fail hfe

end LoggedFeed

end SageGateway
