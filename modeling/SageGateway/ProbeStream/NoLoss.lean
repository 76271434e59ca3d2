import SageGateway.ProbeStream.Position

namespace SageGateway

open List Option

namespace ProbeFeed

open OrderedLog

variable {R : Type} {C : ProbeReader} {window : StreamID} {s s' : ProbeFeed R}

def Running : ProbePhase R → Prop
  | .stopped => False
  | .starting .dollar => False
  | _ => True

def Anchored : ProbePhase R → Prop
  | .applying batch lastID => endOf batch lastID ≠ none
  | .blocked _ lastID => lastID ≠ none
  | _ => True

structure Live (C : ProbeReader) (window : StreamID) (s : ProbeFeed R) : Prop where
  placed : Placed C window s
  anchored : Anchored s.phase
  running : Running s.phase

theorem covers_up {lastID : ReplayFrom} {a b : StreamID} (h : lastID.covers a = true)
    (hlt : a < b) : lastID.covers b = true := by
  cases lastID with
  | dollar => cases h
  | incl w => exact decide_eq_true (le_trans (of_decide_eq_true h) (le_of_lt hlt))
  | excl r => exact decide_eq_true (lt_trans (of_decide_eq_true h) hlt)

variable {batch : List (ProbeEntry R)} {trimmed : Nat} {lastID : Option StreamID} {e : ProbeEntry R}
  {last : StreamID}

theorem unread_applying
    (hp : s.phase = .applying batch lastID) (he : endOf batch lastID = some last) :
    s.unread = batch ++ s.arrived last := by
  rw [unread,hp]
  dsimp only
  rw [he]

theorem unread_blocked {position : StreamID}
    (hp : s.phase = .blocked position lastID) : s.unread = s.arrived position := by
  rw [unread,hp]

theorem unread_starting {lastID : ReplayFrom} (hp : s.phase = .starting lastID) :
    s.unread = s.inRange lastID := by
  rw [unread,hp]

theorem running_of_applying
    (hp : s.phase = .applying batch lastID) : Running s.phase := by
  rw [hp]
  trivial

theorem running_of_blocked {position : StreamID}
    (hp : s.phase = .blocked position lastID) : Running s.phase := by
  rw [hp]
  trivial

theorem endOf_of_getLast {x : ProbeEntry R}
    (h : batch.getLast? = some x) (lastID : Option StreamID) : endOf batch lastID = some x.id := by
  rw [endOf,h]
  rfl

theorem endOf_cons (m : ProbeEntry R) (rest : List (ProbeEntry R)) (lastID : Option StreamID) :
    endOf (m :: rest) lastID = endOf rest (some m.id) := by
  cases rest with
  | nil => rfl
  | cons x xs =>
    rfl

theorem getLast_of_ne_nil (h : batch ≠ []) :
    ∃ x, batch.getLast? = some x := by
  cases hx : batch.getLast? with
  | none => exact absurd (getLast?_eq_none_iff.mp hx) h
  | some x => exact ⟨x,rfl⟩

theorem anchored_of_end
    (h : endOf batch lastID = some last) : Anchored (.applying batch lastID : ProbePhase R) :=
  fun hn => by cases h.symm.trans hn

section

variable (h : Live C window s)

include h

theorem Live.xrange (hu : s.unread ≠ [])
    (hx : s.xrange = some s') : Live C window s' ∧ s'.unread = s.unread := by
  have hp := h.placed.xrange hx
  obtain ⟨lastID,-,hph,rfl⟩ := xrange_eq hx
  rw [unread_starting hph] at hu ⊢
  obtain ⟨x,hx⟩ := getLast_of_ne_nil hu
  have he := endOf_of_getLast hx s.resume
  refine ⟨⟨hp,anchored_of_end he,trivial⟩,?_⟩
  have ha := take_append_after h.placed.ordered (fun a b => covers_up)
    (s.inRange lastID).length (by rw [inRange,take_length]; exact hx)
  rw [inRange,take_length] at ha
  exact (unread_applying rfl he).trans ha

theorem Live.apply (ha : s.apply = some s') :
    Live C window s' ∧ ∃ m rest lastID, s.phase = .applying (m :: rest) lastID ∧
      s.unread = m :: s'.unread := by
  have hpl := h.placed.apply ha
  obtain ⟨m,rest,lastID,hp,rfl⟩ := apply_eq ha
  have han := h.anchored
  rw [hp] at han
  obtain ⟨last,hl⟩ := ne_none_iff_exists'.mp han
  have he := (endOf_cons m rest lastID).symm.trans hl
  refine ⟨⟨hpl,anchored_of_end he,trivial⟩,m,rest,lastID,hp,?_⟩
  rw [unread_applying hp hl,unread_applying rfl he]
  rfl

theorem Live.xread (hx : s.xread = some s') : Live C window s' ∧ s'.unread = s.unread := by
  have hpl := h.placed.xread hx
  obtain ⟨lastID,hp,rfl⟩ := xread_eq hx
  have ha := h.anchored
  rw [hp] at ha
  cases lastID with
  | none => exact absurd rfl ha
  | some r => exact ⟨⟨hpl,nofun,trivial⟩,(unread_applying hp rfl).symm⟩

theorem Live.deliver (hd : s.deliver = some s') : Live C window s' ∧ s'.unread = s.unread := by
  have hp := h.placed.deliver hd
  obtain ⟨position,lastID,hph,hne,rfl⟩ := deliver_eq hd
  have ht : (s.arrived position).take probeReadCount ≠ [] := fun hn =>
    hne ((take_eq_nil_iff.mp hn).resolve_left nofun)
  obtain ⟨x,hx⟩ := getLast_of_ne_nil ht
  have he := endOf_of_getLast hx lastID
  refine ⟨⟨hp,anchored_of_end he,trivial⟩,?_⟩
  rw [unread_applying rfl he,unread_blocked hph]
  refine take_append_after h.placed.ordered (fun a b ha hlt => ?_) probeReadCount hx
  exact decide_eq_true (lt_trans (of_decide_eq_true ha) hlt)

theorem Live.timeout (ht : s.timeout = some s') : Live C window s' ∧ s'.unread = s.unread := by
  have hpl := h.placed.timeout ht
  obtain ⟨position,lastID,hph,-,rfl⟩ := timeout_eq ht
  have ha := h.anchored
  have hp := h.placed.phase
  rw [hph] at ha hp
  obtain ⟨-,hl,-,hpo⟩ := hp
  cases lastID with
  | none => exact absurd rfl ha
  | some r =>
    refine ⟨⟨hpl,nofun,trivial⟩,?_⟩
    have he : endOf ([] : List (ProbeEntry R)) (some r) = some r := rfl
    rw [unread_blocked hph,hpo r hl.symm]
    rfl

end

theorem selected_publish {p : ProbeEntry R → Bool}
    (ht : trimmed ≤ s.entries.length) (hold : ∀ x ∈ s.entries.take trimmed, p x = false)
    (he : p e = true) :
    ((s.entries ++ [e]).drop trimmed).filter p = s.entries.filter p ++ [e] := by
  rw [filter_drop,filter_append]
  · exact congrArg (s.entries.filter p ++ ·) (filter_eq_self.mpr fun x hx =>
      mem_singleton.mp hx ▸ he)
  · intro x hx
    rw [take_append_of_le_length ht] at hx
    exact hold x hx

theorem trimmed_le (h : s.publish e trimmed = some s') :
    trimmed ≤ s.entries.length := by
  unfold publish at h
  split at h
  · rename_i hc
    obtain ⟨-,-,hz | hl⟩ := hc
    · omega
    · unfold probeStreamMaxLen at hl
      omega
  · cases h

theorem Live.covers (h : Live C window s) {lastID : ReplayFrom}
    (hph : s.phase = .starting lastID) {id : StreamID} (hlt : s.newest < id)
    (hms : unixMilli s.now ≤ id.ms) : lastID.covers id = true := by
  have hp := h.placed.phase
  have hr := h.running
  rw [hph] at hp hr
  cases lastID with
  | dollar => exact hr.elim
  | incl w => exact decide_eq_true (hp.2.1 ▸ h.placed.early id hms)
  | excl r => exact decide_eq_true (lt_of_le_of_lt (h.placed.resumed r hp.2.1).1 hlt)

theorem Live.end_le_newest (h : Live C window s) (hph : s.phase = .applying batch lastID)
    (he : endOf batch lastID = some last) : last ≤ s.newest := by
  have hp := h.placed.phase
  rw [hph] at hp
  obtain ⟨-,hl,-,hb⟩ := hp
  cases hx : batch.getLast? with
  | none =>
    rw [endOf,hx] at he
    exact (h.placed.resumed last (hl.symm.trans he)).1
  | some x =>
    rw [endOf_of_getLast hx] at he
    rw [← some.inj he]
    exact (hb x (mem_of_getLast? hx)).1

def Untrimmed (s : ProbeFeed R) (trimmed : Nat) : Prop :=
  ∀ x ∈ s.entries.take trimmed, x.id ∉ s.unread.map ProbeEntry.id

instance (s : ProbeFeed R) (trimmed : Nat) : Decidable (Untrimmed s trimmed) :=
  inferInstanceAs (Decidable (∀ x ∈ s.entries.take trimmed, _))

theorem Untrimmed.unselected (h : Untrimmed s trimmed) {p : ProbeEntry R → Bool}
    (hp : ∀ x ∈ s.entries.filter p, x ∈ s.unread) : ∀ x ∈ s.entries.take trimmed, p x = false := by
  intro x hx
  refine Bool.eq_false_iff.mpr fun hpx => ?_
  have hm := hp x (mem_filter.mpr ⟨mem_of_mem_take hx,hpx⟩)
  exact h x hx (List.mem_map_of_mem hm)

theorem Live.publish (h : Live C window s)
    (hok : Untrimmed s trimmed) (hp : s.publish e trimmed = some s') :
    Live C window s' ∧ s'.unread = s.unread ++ [e] := by
  have hpl := h.placed.publish hp
  have ht := trimmed_le hp
  obtain ⟨hlt,hms,rfl⟩ := publish_eq hp
  refine ⟨{ h with placed := hpl },?_⟩
  cases hph : s.phase with
  | stopped => exact (hph ▸ h.running : Running (.stopped : ProbePhase R)).elim
  | starting lastID =>
    have hu := unread_starting hph
    refine (unread_starting rfl).trans ?_
    rw [hu]
    refine selected_publish ht (hok.unselected fun x hx => ?_) (h.covers hph hlt hms)
    exact hu ▸ hx
  | applying batch lastID =>
    have ha := h.anchored
    rw [hph] at ha
    obtain ⟨last,he⟩ := ne_none_iff_exists'.mp ha
    have hu := unread_applying hph he
    refine (unread_applying rfl he).trans ?_
    rw [hu,append_assoc]
    refine congrArg (batch ++ ·) (selected_publish ht (hok.unselected fun x hx => ?_) ?_)
    · exact hu ▸ mem_append_right batch hx
    · exact decide_eq_true (lt_of_le_of_lt (h.end_le_newest hph he) hlt)
  | blocked position lastID =>
    have hu := unread_blocked hph
    have hpa := h.placed.phase
    rw [hph] at hpa
    refine (unread_blocked rfl).trans ?_
    rw [hu]
    refine selected_publish ht (hok.unselected fun x hx => ?_) ?_
    · exact hu ▸ hx
    · exact decide_eq_true (lt_of_le_of_lt hpa.2.2.1 hlt)

end ProbeFeed

namespace LoggedFeed

open ProbeFeed

variable {R : Type} {C : ProbeReader} {s s' : LoggedFeed R}

def Attached (s : LoggedFeed R) : ProbeAct R → Prop
  | .xrange => s.feed.unread.isEmpty = false ∨ s.feed.resume.isSome = true
  | .publish _ trimmed => Untrimmed s.feed trimmed
  | _ => True

instance (s : LoggedFeed R) : (a : ProbeAct R) → Decidable (Attached s a)
  | .xrange => inferInstanceAs (Decidable (_ ∨ _))
  | .publish _ trimmed => inferInstanceAs (Decidable (Untrimmed s.feed trimmed))
  | .tick _ | .run | .apply | .xread | .deliver | .timeout | .fail => .isTrue trivial

def Done (C : ProbeReader) (s : LoggedFeed R) (e : ProbeEntry R) : Prop :=
  e.applies C = true → e ∈ s.runApplied

def Pending (s : LoggedFeed R) (e : ProbeEntry R) (due : Nat) : Prop :=
  ∃ pre post, s.feed.unread = pre ++ e :: post ∧ s.handled + pre.length < due

structure Queue (C : ProbeReader) (s : LoggedFeed R) : Prop where
  placed : Placed C s.window s.feed
  anchored : Anchored s.feed.phase
  due : Running s.feed.phase → ∀ p ∈ s.published, Done C s p.1 ∨ s.Pending p.1 p.2

theorem Queue.live (h : Queue C s) (hr : Running s.feed.phase) : Live C s.window s.feed :=
  { h with running := hr }

theorem queue_start (now : Int) : Queue C (start now : LoggedFeed R) where
  placed := placed_start now
  anchored := trivial
  due h := h.elim

variable {feed : ProbeFeed R}

theorem Queue.publish {e : ProbeEntry R} {trimmed : Nat} (h : Queue C s)
    (hok : Untrimmed s.feed trimmed) (hp : s.feed.publish e trimmed = some feed) :
    Queue C (s.notePublish e feed) := by
  have hph : feed.phase = s.feed.phase := by
    obtain ⟨-,-,rfl⟩ := publish_eq hp
    rfl
  refine ⟨h.placed.publish hp,?_,fun hr p hm => ?_⟩
  · exact (hph ▸ h.anchored : Anchored feed.phase)
  · have hru : Running s.feed.phase := hph ▸ hr
    have hu := ((h.live hru).publish hok hp).2
    rcases mem_append.mp hm with hm | hm
    · refine (h.due hru p hm).imp_right ?_
      rintro ⟨pre,post,heq,hlt⟩
      refine ⟨pre,post ++ [e],?_,hlt⟩
      exact hu.trans (by rw [heq,append_assoc,cons_append])
    · rw [mem_singleton.mp hm]
      exact .inr ⟨s.feed.unread,[],hu,Nat.lt_succ_self _⟩

theorem Queue.kept (h : Queue C s) (hr : Running s.feed.phase)
    (hl : Live C s.window feed ∧ feed.unread = s.feed.unread) :
    Queue C { s with feed := feed } := by
  refine ⟨hl.1.placed,hl.1.anchored,fun _ p hm => (h.due hr p hm).imp_right ?_⟩
  rintro ⟨pre,post,heq,hlt⟩
  exact ⟨pre,post,hl.2.trans heq,hlt⟩

theorem Queue.xrange (h : Queue C s)
    (hok : s.feed.unread.isEmpty = false ∨ s.feed.resume.isSome = true)
    (hx : s.feed.xrange = some feed) : Queue C { s with feed := feed } := by
  obtain ⟨lastID,hne,hp,hfe⟩ := xrange_eq hx
  have hru : Running s.feed.phase := by
    rw [hp]
    cases lastID with
    | dollar => exact absurd rfl hne
    | _ => trivial
  by_cases hu : s.feed.unread = []
  · have hre : s.feed.resume.isSome = true := hok.resolve_left fun hf => by
      rw [hu] at hf
      cases hf
    obtain ⟨r,hr⟩ := isSome_iff_exists.mp hre
    rw [unread_starting hp] at hu
    refine ⟨h.placed.xrange hx,?_,fun _ p hm => ?_⟩
    · rw [hfe,hu,hr]
      exact nofun
    · -- what the replay did not find was not published by anyone since the Run began
      rcases h.due hru p hm with hd | ⟨pre,post,heq,-⟩
      · exact .inl hd
      · rw [unread_starting hp,hu] at heq
        cases pre <;> cases heq
  · exact h.kept hru ((h.live hru).xrange hu hx)

theorem Queue.apply (h : Queue C s) (ha : s.feed.apply = some feed) :
    Queue C (s.noteApply C feed) := by
  obtain ⟨m,rest,lastID,hp,-⟩ := apply_eq ha
  have hr := running_of_applying hp
  obtain ⟨hl,m,rest,lastID,hp,hu⟩ := (h.live hr).apply ha
  rw [noteApply_eq feed hp]
  have hn {p : ProbeEntry R × Nat} {pre post : List (ProbeEntry R)}
      (heq : s.feed.unread = pre ++ p.1 :: post) (hlt : s.handled + pre.length < p.2) :
      p.1 = m ∨ ∃ pre, feed.unread = pre ++ p.1 :: post ∧ s.handled + 1 + pre.length < p.2 := by
    rw [hu] at heq
    cases pre with
    | nil => exact .inl (List.cons.inj heq).1.symm
    | cons x pre =>
      refine .inr ⟨pre,(List.cons.inj heq).2,?_⟩
      rw [length_cons] at hlt
      omega
  split
  · refine ⟨hl.placed,hl.anchored,fun _ p hme => ?_⟩
    rcases h.due hr p hme with hd | ⟨pre,post,heq,hlt⟩
    · exact .inl fun hap => mem_append_left _ (hd hap)
    · rcases hn heq hlt with hm | ⟨pre,heq,hlt⟩
      · exact .inl fun _ => mem_append_right _ (mem_singleton.mpr hm)
      · exact .inr ⟨pre,post,heq,hlt⟩
  · rename_i hs
    refine ⟨hl.placed,hl.anchored,fun _ p hme => ?_⟩
    rcases h.due hr p hme with hd | ⟨pre,post,heq,hlt⟩
    · exact .inl hd
    · rcases hn heq hlt with hm | ⟨pre,heq,hlt⟩
      · exact .inl fun hap => absurd (hm ▸ hap) hs
      · exact .inr ⟨pre,post,heq,hlt⟩

theorem queue_step {a : ProbeAct R} (h : Queue C s) (hok : Attached s a)
    (hs : s.step C a = some s') : Queue C s' := by
  obtain ⟨feed,hf,rfl⟩ := map_eq_some_iff.mp hs
  cases a with
  | tick d =>
    cases hf
    exact ⟨h.placed.tick d,h.anchored,h.due⟩
  | publish e trimmed => exact h.publish hok hf
  | run =>
    refine ⟨h.placed.run hf,?_,fun _ p hm => by cases hm⟩
    obtain ⟨-,rfl⟩ := run_eq hf
    trivial
  | xrange => exact h.xrange hok hf
  | apply => exact h.apply hf
  | xread =>
    obtain ⟨lastID,hp,-⟩ := xread_eq hf
    have hru := running_of_applying hp
    exact h.kept hru ((h.live hru).xread hf)
  | deliver =>
    obtain ⟨position,lastID,hp,-⟩ := deliver_eq hf
    have hru := running_of_blocked hp
    exact h.kept hru ((h.live hru).deliver hf)
  | timeout =>
    obtain ⟨position,lastID,hp,-⟩ := timeout_eq hf
    have hru := running_of_blocked hp
    exact h.kept hru ((h.live hru).timeout hf)
  | fail =>
    refine ⟨h.placed.fail hf,?_,fun hr => ?_⟩
    · obtain rfl := fail_eq hf
      trivial
    · obtain rfl := fail_eq hf
      exact hr.elim

def Reading : ProbeAct R → Prop
  | .xrange => True
  | .apply => True
  | .xread => True
  | .deliver => True
  | _ => False

def ReadsOn (C : ProbeReader) : LoggedFeed R → LoggedFeed R → Prop :=
  Run.Reaches (step C) fun _ a => Reading a

theorem ReadsOn.one {a : ProbeAct R} (ha : Reading a)
    (hf : s.feed.step C a = some feed) : ReadsOn C s (s.note C feed a) :=
  Run.Reaches.start.next ha (by rw [step,hf]; rfl)

def AtMessage (C : ProbeReader) (s s' : LoggedFeed R) : Prop :=
  ReadsOn C s s' ∧ Live C s'.window s'.feed ∧ s'.feed.unread = s.feed.unread ∧
    s'.runApplied = s.runApplied ∧
    ∃ m rest lastID, s'.feed.phase = .applying (m :: rest) lastID

section

variable (h : Live C s.window s.feed)

include h

theorem blocked_atMessage (hu : s.feed.unread ≠ []) {position : StreamID} {lastID : Option StreamID}
    (hp : s.feed.phase = .blocked position lastID) : ∃ s', AtMessage C s s' := by
  rw [unread_blocked hp] at hu
  obtain ⟨x,xs,ha⟩ := exists_cons_of_ne_nil hu
  have hd : s.feed.deliver = some { s.feed with
      phase := .applying ((x :: xs).take probeReadCount) lastID } := by
    rw [deliver,hp]
    dsimp only
    rw [ha]
  obtain ⟨hl,hun⟩ := h.deliver hd
  have hr := ReadsOn.one (C := C) (s := s) (a := .deliver) trivial hd
  exact ⟨_,hr,hl,hun,rfl,x,_,lastID,rfl⟩

theorem exists_atMessage (hu : s.feed.unread ≠ []) : ∃ s', AtMessage C s s' := by
  cases hp : s.feed.phase with
  | stopped => exact (hp ▸ h.running : Running (.stopped : ProbePhase R)).elim
  | starting lastID =>
    have hx : s.feed.xrange = some { s.feed with
        phase := .applying (s.feed.inRange lastID) s.feed.resume } := by
      rw [xrange,hp]
      cases lastID with
      | dollar => exact (hp ▸ h.running : Running (.starting .dollar : ProbePhase R)).elim
      | _ => rfl
    obtain ⟨hl,hun⟩ := h.xrange hu hx
    have hr := ReadsOn.one (C := C) (s := s) (a := .xrange) trivial hx
    rw [unread_starting hp] at hu
    obtain ⟨x,xs,hra⟩ := exists_cons_of_ne_nil hu
    exact ⟨_,hr,hl,hun,rfl,x,xs,s.feed.resume,by rw [← hra]; rfl⟩
  | applying batch lastID =>
    cases batch with
    | cons m rest => exact ⟨s,.start,h,rfl,rfl,m,rest,lastID,hp⟩
    | nil =>
      have hx : s.feed.xread = some { s.feed with
          phase := .blocked (lastID.getD s.feed.newest) lastID } := by
        rw [xread,hp]
      obtain ⟨hl,hun⟩ := h.xread hx
      have hr := ReadsOn.one (C := C) (s := s) (a := .xread) trivial hx
      obtain ⟨s',hre,hl',hu',ha,hat⟩ :=
        blocked_atMessage (s := s.note C _ .xread) hl (hun.symm ▸ hu) rfl
      exact ⟨s',hr.trans hre,hl',hu'.trans hun,ha,hat⟩
  | blocked position lastID => exact blocked_atMessage h hu hp

theorem read_next {m : ProbeEntry R} {tail : List (ProbeEntry R)} (hu : s.feed.unread = m :: tail) :
    ∃ s', ReadsOn C s s' ∧ Live C s'.window s'.feed ∧ s'.feed.unread = tail ∧
      (m.applies C = true → m ∈ s'.runApplied) := by
  obtain ⟨t,hr,hl,hun,-,m',rest,lastID,hp⟩ :=
    exists_atMessage h (hu ▸ cons_ne_nil m tail)
  have ha : t.feed.apply = some { t.feed with
      resume := some m'.id, phase := .applying rest (some m'.id) } := by
    rw [apply,hp]
  obtain ⟨hl',m'',rest',lastID',hp',hc⟩ := hl.apply ha
  rw [hp] at hp'
  cases hp'
  obtain ⟨rfl,ht⟩ := List.cons.inj ((hc.symm.trans hun).trans hu)
  have hap := ReadsOn.one (C := C) (s := t) (a := .apply) trivial ha
  rw [note,noteApply_eq _ hp] at hap
  split at hap
  · exact ⟨_,hr.trans hap,hl',ht,fun _ =>
      mem_append_right _ (mem_singleton.mpr rfl)⟩
  · rename_i hs
    exact ⟨_,hr.trans hap,hl',ht,fun happ => absurd happ hs⟩

theorem reads_until_applied {e : ProbeEntry R}
    {pre post : List (ProbeEntry R)} (hu : s.feed.unread = pre ++ e :: post)
    (hap : e.applies C = true) : ∃ s', ReadsOn C s s' ∧ e ∈ s'.runApplied := by
  induction pre generalizing s with
  | nil =>
    obtain ⟨s',hr,-,-,ha⟩ := read_next h hu
    exact ⟨s',hr,ha hap⟩
  | cons m pre ih =>
    obtain ⟨t,hr,hl,hun,-⟩ := read_next h hu
    obtain ⟨s',hr',ha⟩ := ih hl hun
    exact ⟨s',hr.trans hr',ha⟩

end

theorem timeout_of_unread (hu : s.feed.unread ≠ []) : s.feed.timeout = none := by
  cases ht : s.feed.timeout with
  | none => rfl
  | some feed =>
    obtain ⟨position,lastID,hp,hn,-⟩ := timeout_eq ht
    exact absurd ((unread_blocked hp).trans hn) hu

theorem no_probe_result_lost_while_reading {now : Int}
    (h : Run.Reaches (step C) Attached (start now) s) (hr : Running s.feed.phase)
    {e : ProbeEntry R} {due : Nat} (hmem : (e,due) ∈ s.published) (happ : e.applies C = true) :
    e ∈ s.runApplied ∨
    (s.handled < due ∧ s.feed.timeout = none ∧ ∃ s', ReadsOn C s s' ∧ e ∈ s'.runApplied) := by
  have hq : Queue C s :=
    h.invariant (Queue C) (queue_start now) fun _ _ _ hs hok hst => queue_step hs hok hst
  rcases hq.due hr (e,due) hmem with hd | ⟨pre,post,hu,hlt⟩
  · exact .inl (hd happ)
  · refine .inr ⟨by omega,timeout_of_unread ?_,
      reads_until_applied (hq.live hr) hu happ⟩
    rw [hu]
    exact append_ne_nil_of_right_ne_nil pre (cons_ne_nil e post)

def peer : ProbeReader := ⟨"follower-1".toList,1000000000⟩

def result (ms : Nat) : ProbeEntry Nat := ⟨⟨ms,0⟩,some ("leader-1".toList,ms)⟩

def readAll : ProbePhase R → Bool
  | .applying [] _ => true
  | _ => false

theorem running_of_read {phase : ProbePhase R} (h : readAll phase = true) : Running phase := by
  cases phase with
  | applying batch lastID => trivial
  | _ => cases h

theorem entry_before_the_first_read_is_lost :
    ∃ s : LoggedFeed Nat, Run.Reaches (step peer) (fun _ _ => True) (start 10000000000) s ∧
      Running s.feed.phase ∧ (result 10000,1) ∈ s.published ∧ (result 10000).applies peer = true ∧
      1 ≤ s.handled ∧ result 10000 ∉ s.runApplied := by
  obtain ⟨s,hs,hp,hr⟩ : ∃ s : LoggedFeed Nat, Run.Reaches (step peer) (fun _ _ => True)
      (start 10000000000) s ∧ readAll s.feed.phase = true ∧ (result 10000,1) ∈ s.published ∧
      (result 10000).applies peer = true ∧ 1 ≤ s.handled ∧ result 10000 ∉ s.runApplied :=
    Run.reaches [.run,.xrange,.publish (result 10000) 0,.xread,.publish (result 10001) 0,.deliver,
      .apply] (by decide +kernel)
  exact ⟨s,hs,running_of_read hp,hr⟩

theorem entry_between_two_reads_is_applied :
    ∃ s : LoggedFeed Nat, Run.Reaches (step peer) Attached (start 10000000000) s ∧
      Running s.feed.phase ∧ (result 10001,2) ∈ s.published ∧ result 10001 ∈ s.runApplied := by
  obtain ⟨s,hre,hp,hm,hh⟩ : ∃ s : LoggedFeed Nat, Run.Reaches (step peer) Attached
      (start 10000000000) s ∧ readAll s.feed.phase = true ∧ (result 10001,2) ∈ s.published ∧
      s.handled = 2 :=
    Run.reaches [.publish (result 10000) 0,.run,.xrange,.apply,.xread,.timeout,
      .publish (result 10001) 0,.xread,.deliver,.apply] (by decide +kernel)
  have hr : Running s.feed.phase := running_of_read hp
  refine ⟨s,hre,hr,hm,?_⟩
  refine (no_probe_result_lost_while_reading hre hr hm (by decide)).resolve_right ?_
  exact fun hl => Nat.lt_irrefl 2 (hh ▸ hl.1)

end LoggedFeed

end SageGateway
