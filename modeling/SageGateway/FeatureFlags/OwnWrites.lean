import SageGateway.FeatureFlags

namespace SageGateway

open List Option GoMap

namespace FlagChange

def Dropped (d : GoMap GoString Bool) : FlagChange → Prop
  | .deleteGlobal flag => d.get flag = none
  | _ => True

theorem Dropped.defaults {d : GoMap GoString Bool} {c : FlagChange} (h : c.Dropped d)
    (c' : FlagChange) : c.Dropped (c'.defaults d) := by
  cases c with
  | deleteGlobal flag =>
    cases c' with
    | deleteGlobal flag' =>
      refine (get_del d flag' flag).trans ?_
      split
      · rfl
      · exact h
    | _ => exact h
  | _ => trivial

theorem dropped_defaults (d : GoMap GoString Bool) (c : FlagChange) : c.Dropped (c.defaults d) := by
  cases c with
  | deleteGlobal flag => exact get_del_self d flag
  | _ => trivial

theorem keySpace_isPrefixOf_key (F : FlagSpace) (c : FlagChange) :
    F.keySpace.isPrefixOf (c.key F) = true := by
  have hg (flag : GoString) : F.keySpace <+: F.globalKey flag := ⟨flag,rfl⟩
  have hs (flag serviceID : GoString) : F.keySpace <+: F.serviceKey flag serviceID :=
    ⟨flag ++ (":".toList ++ serviceID),by simp [FlagSpace.serviceKey]⟩
  rw [ isPrefixOf_iff_prefix]
  cases c with
  | set flag enabled => exact hg flag
  | setForService flag serviceID enabled => exact hs flag serviceID
  | delete flag serviceID =>
    simp only [key]
    split
    · exact hs flag serviceID
    · exact hg flag
  | deleteGlobal flag => exact hg flag

end FlagChange

namespace FlagRefresh

def Keeps (k : GoString) (v : Option Bool) : FlagRefresh → Prop
  | .idle => True
  | .scanning throughout => v.isSome = true → k ∈ throughout
  | .reading pending next => next.get k = v ∨ k ∈ pending ∧ next.get k = none

theorem Keeps.without {k key : GoString} {v : Option Bool} {r : FlagRefresh} (h : r.Keeps k v)
    (hne : key ≠ k) : (r.without key).Keeps k v := by
  cases r with
  | scanning throughout =>
    exact fun hv => mem_filter.mpr ⟨h hv,decide_eq_true fun heq => hne heq.symm⟩
  | _ => exact h

theorem isIdle_without (key : GoString) (r : FlagRefresh) : (r.without key).isIdle = r.isIdle := by
  cases r <;> rfl

end FlagRefresh

namespace FlagReplica

variable {F : FlagSpace} {k : GoString} {r r' : FlagReplica} {n : Nat} {c : FlagChange}

structure Standing (F : FlagSpace) (k : GoString) (r : FlagReplica) (c : FlagChange) : Prop where
  key : c.key F = k
  free : ∀ n d, r.calls.get n = some d → d.change.key F ≠ k
  snapshot : r.snapshot.get k = c.value
  stored : F.client = true → r.read k = c.value
  refresh : r.refresh.Keeps k c.value
  dropped : c.Dropped r.defaults

def Progress (F : FlagSpace) (k : GoString) (r : FlagReplica) (c : FlagChange) : CallStage → Prop
  | .called => True
  | .updated => r.snapshot.get k = c.value
  | .written ok =>
      r.snapshot.get k = c.value ∧ (ok = true → F.client = true → r.read k = c.value)

structure Sole (F : FlagSpace) (k : GoString) (r : FlagReplica) (n : Nat) (c : FlagCall) :
    Prop where
  call : r.calls.get n = some c
  key : c.change.key F = k
  only : ∀ m d, r.calls.get m = some d → d.change.key F = k → m = n
  progress : r.Progress F k c.change c.stage

def Tracks (F : FlagSpace) (k : GoString) (r : FlagReplica) : FlagTracker → Prop
  | .quiet => True
  | .sole n => ∃ c, r.Sole F k n c
  | .standing c => r.Standing F k c

structure Frame (F : FlagSpace) (k : GoString) (r r' : FlagReplica) : Prop where
  calls : ∀ m d, d.change.key F = k → (r'.calls.get m = some d ↔ r.calls.get m = some d)
  snapshot : r'.snapshot.get k = r.snapshot.get k
  read : r'.read k = r.read k
  defaults : ∀ c : FlagChange, c.Dropped r.defaults → c.Dropped r'.defaults

theorem Standing.frame (h : r.Standing F k c) (hf : Frame F k r r')
    (hr : r'.refresh.Keeps k c.value) : r'.Standing F k c where
  key := h.key
  free n d hd hkey := h.free n d ((hf.calls n d hkey).mp hd) hkey
  snapshot := hf.snapshot.trans h.snapshot
  stored hclient := hf.read.trans (h.stored hclient)
  refresh := hr
  dropped := hf.defaults c h.dropped

theorem Standing.keeps (h : r.Standing F k c) {q : FlagRefresh} (hq : r.refresh = q) :
    q.Keeps k c.value := hq ▸ h.refresh

theorem Progress.frame {stage : CallStage} (h : r.Progress F k c stage) (hf : Frame F k r r') :
    r'.Progress F k c stage := by
  cases stage with
  | called => trivial
  | updated => exact hf.snapshot.trans h
  | written ok => exact ⟨hf.snapshot.trans h.1,fun hok hc => hf.read.trans (h.2 hok hc)⟩

theorem Sole.frame {d : FlagCall} (h : r.Sole F k n d) (hf : Frame F k r r') :
    r'.Sole F k n d where
  call := (hf.calls n d h.key).mpr h.call
  key := h.key
  only m e he hkey := h.only m e ((hf.calls m e hkey).mp he) hkey
  progress := h.progress.frame hf

theorem Tracks.frame {t : FlagTracker} (h : r.Tracks F k t) (hf : Frame F k r r')
    (hr : ∀ c, r.Standing F k c → r'.refresh.Keeps k c.value) : r'.Tracks F k t := by
  cases t with
  | quiet => trivial
  | sole n =>
    obtain ⟨d,hd⟩ := h
    exact ⟨d,hd.frame hf⟩
  | standing c => exact Standing.frame h hf (hr c h)

theorem put_other {d e : FlagCall} {old : Option FlagCall} (hold : r.calls.get n = old)
    (hne : ∀ o, old = some o → o.change.key F ≠ k) (hd : d.change.key F ≠ k) (m : Nat)
    (hk : e.change.key F = k) :
    (r.calls.put n d).get m = some e ↔ r.calls.get m = some e := by
  rw [get_put]
  split
  · rename_i hm
    subst hm
    constructor
    · intro h
      exact absurd (some.inj h ▸ hk) hd
    · intro h
      exact absurd hk (hne e (hold.symm.trans h))
  · rfl

theorem startCall_eq (h : r.startCall n c = some r') : r.calls.get n = none ∧
    r' = { r with defaults := c.defaults r.defaults }.setCall n ⟨c,.called⟩ := by
  unfold startCall at h
  split at h
  · cases h
  · cases h
    exact ⟨not_isSome_iff_eq_none.mp ‹_›,rfl⟩

theorem update_eq (h : r.update F n = some r') : ∃ c, r.calls.get n = some ⟨c,.called⟩ ∧
    r' = (r.updateSnapshot (c.key F) c.value).setCall n ⟨c,.updated⟩ := by
  unfold update at h
  split at h
  · cases h
    exact ⟨_,‹_›,rfl⟩
  · cases h

theorem write_eq {reply : RemoteReply} (h : r.write F n reply = some r') :
    ∃ c q ok, r.calls.get n = some ⟨c,.updated⟩ ∧ r' = setCall q n ⟨c,.written ok⟩ ∧
      (q = r ∨ q = r.command (c.key F) c.value) ∧
      (ok = true → F.client = true → q = r.command (c.key F) c.value) := by
  unfold write at h
  split at h
  · rename_i c hc
    split at h
    · cases h
      refine ⟨c,_,_,hc,rfl,?_,fun hok _ => ?_⟩
      · split
        · exact .inr rfl
        · exact .inl rfl
      · cases reply with
        | ok => rfl
        | failed applied => cases hok
    · cases h
      exact ⟨c,r,true,hc,rfl,.inl rfl,fun _ hcl => absurd hcl ‹_›⟩
  · cases h

theorem ret_eq (h : r.ret n = some r') : ∃ c ok, r.calls.get n = some ⟨c,.written ok⟩ ∧
    r' = { r with calls := r.calls.del n } := by
  unfold ret at h
  split at h
  · cases h
    exact ⟨_,_,‹_›,rfl⟩
  · cases h

section

variable (key : GoString) (v : Option Bool)

theorem get_updateSnapshot :
    (r.updateSnapshot key v).snapshot.get k = if k = key then v else r.snapshot.get k := by
  cases v with
  | none => exact get_del _ _ _
  | some value => exact get_put _ _ _ _

theorem updateSnapshot_rest :
    ∃ snapshot, r.updateSnapshot key v = { r with snapshot := snapshot } := by
  cases v <;> exact ⟨_,rfl⟩

theorem read_command : (r.command key v).read k = if k = key then v else r.read k := by
  cases v with
  | none =>
    simp [command,redisDel,read,get_del]
    split <;> rfl
  | some value =>
    simp [command,redisSet,read,get_put]
    split
    · exact congrArg some (flagOf_flagText value)
    · rfl

theorem command_rest : ∃ redis refresh,
    r.command key v = { r with redis := redis, refresh := refresh } ∧
      (refresh = r.refresh ∨ refresh = r.refresh.without key) := by
  cases v with
  | none => exact ⟨_,_,rfl,.inr rfl⟩
  | some value => exact ⟨_,r.refresh,rfl,.inl rfl⟩

end

end FlagReplica

namespace LoggedFlags

open FlagReplica

variable {F : FlagSpace} {k : GoString} {s s' : LoggedFlags}

structure Sound (F : FlagSpace) (k : GoString) (s : LoggedFlags) : Prop where
  polled : s.replica.refresh.isIdle = false → F.client = true
  alone : s.replica.refresh.isIdle = false →
    ∀ n d, s.replica.calls.get n = some d → d.change.key F ≠ k
  dropped : ∀ n d, s.replica.calls.get n = some d → d.change.Dropped s.replica.defaults
  tracks : s.replica.Tracks F k s.tracker

theorem sound_start (redis : GoMap GoString GoString) (overrides : GoMap GoString Bool) :
    Sound F k (start redis overrides) where
  polled h := by cases h
  alone h := by cases h
  dropped n d h := by cases (get_empty n).symm.trans h
  tracks := trivial

variable {r : FlagReplica} {n : Nat}

section

variable (h : Sound F k s)

include h

theorem Sound.startCall {c : FlagChange}
    (hok : Apart F k s (.start n c)) (hr : s.replica.startCall n c = some r) :
    Sound F k ⟨r,s.begun F k n c⟩ := by
  obtain ⟨hn,rfl⟩ := startCall_eq hr
  have hc {m : Nat} {d : FlagCall} (hd : (s.replica.calls.put n ⟨c,.called⟩).get m = some d) :
      d = ⟨c,.called⟩ ∨ s.replica.calls.get m = some d :=
    (get_put_eq_some.mp hd).imp (fun hd => hd.2.symm) And.right
  refine ⟨h.polled,fun hid m d hd => ?_,fun m d hd => ?_,?_⟩
  · rcases hc hd with rfl | hd
    · exact fun hk => Bool.false_ne_true (hid.symm.trans (hok hk))
    · exact h.alone hid m d hd
  · rcases hc hd with rfl | hd
    · exact FlagChange.dropped_defaults _ c
    · exact (h.dropped m d hd).defaults c
  · unfold begun
    split
    · rename_i hk
      split
      · rename_i hf
        refine ⟨⟨c,.called⟩,get_put_self _ _ _,hk,fun m d hd hdk => ?_,trivial⟩
        obtain ⟨hm,-⟩ | ⟨-,hd⟩ := get_put_eq_some.mp hd
        · exact hm
        · exact absurd hdk (free_iff.mp hf m d hd)
      · trivial
    · rename_i hk
      refine h.tracks.frame ?_ fun d hd => hd.refresh
      exact ⟨fun m d => put_other hn nofun hk m,rfl,rfl,fun d hd => hd.defaults c⟩

theorem Sound.advance {c : FlagChange} {stage stage' : CallStage}
    (hc : s.replica.calls.get n = some ⟨c,stage⟩)
    (hca : r.calls = s.replica.calls.put n ⟨c,stage'⟩)
    (hde : r.defaults = s.replica.defaults)
    (hid : r.refresh.isIdle = s.replica.refresh.isIdle)
    (hot : c.key F ≠ k → r.snapshot.get k = s.replica.snapshot.get k ∧
      r.read k = s.replica.read k ∧
      ∀ v, s.replica.refresh.Keeps k v → r.refresh.Keeps k v)
    (how : c.key F = k → s.replica.Progress F k c stage → r.Progress F k c stage') :
    Sound F k ⟨r,s.tracker⟩ := by
  have hg {m : Nat} {d : FlagCall} (hd : r.calls.get m = some d) :
      ∃ e, s.replica.calls.get m = some e ∧ e.change = d.change := by
    rw [hca] at hd
    obtain ⟨rfl,rfl⟩ | ⟨-,hd⟩ := get_put_eq_some.mp hd
    · exact ⟨_,hc,rfl⟩
    · exact ⟨d,hd,rfl⟩
  refine ⟨fun hr => h.polled (hid ▸ hr),fun hr m d hd => ?_,fun m d hd => ?_,?_⟩
  · obtain ⟨e,he,heq⟩ := hg hd
    exact heq ▸ h.alone (hid ▸ hr) m e he
  · obtain ⟨e,he,heq⟩ := hg hd
    exact heq ▸ hde ▸ h.dropped m e he
  · by_cases hk : c.key F = k
    · obtain ⟨replica,tracker⟩ := s
      cases tracker with
      | quiet => trivial
      | standing d => exact absurd hk (h.tracks.free n _ hc)
      | sole m =>
        obtain ⟨d,hd⟩ := h.tracks
        obtain rfl := hd.only n _ hc hk
        obtain rfl := some.inj (hd.call.symm.trans hc)
        refine ⟨⟨c,stage'⟩,hca ▸ get_put_self _ _ _,hk,fun m e he hek => ?_,
          how hk hd.progress⟩
        obtain ⟨e',he',heq⟩ := hg he
        exact hd.only m e' he' (heq ▸ hek)
    · obtain ⟨hs,hra,hre⟩ := hot hk
      refine h.tracks.frame ⟨fun m d hdk => ?_,hs,hra,fun d hd => hde ▸ hd⟩
        fun d hd => hre _ hd.refresh
      rw [hca]
      exact put_other hc (fun o ho => by cases ho; exact hk) hk m hdk

theorem Sound.update (hr : s.replica.update F n = some r) : Sound F k ⟨r,s.tracker⟩ := by
  obtain ⟨c,hc,rfl⟩ := update_eq hr
  have hs := get_updateSnapshot (k := k) (r := s.replica) (c.key F) c.value
  obtain ⟨snapshot,heq⟩ := updateSnapshot_rest (r := s.replica) (c.key F) c.value
  rw [heq] at hs ⊢
  refine h.advance hc rfl rfl rfl (fun hk => ⟨?_,rfl,fun v hv => hv⟩) fun hk _ => ?_
  · exact hs.trans (if_neg fun heq => hk heq.symm)
  · exact hs.trans (if_pos hk.symm)

theorem Sound.write {reply : RemoteReply}
    (hr : s.replica.write F n reply = some r) : Sound F k ⟨r,s.tracker⟩ := by
  obtain ⟨c,q,ok,hc,rfl,hq,hok⟩ := write_eq hr
  have hre := read_command (k := k) (r := s.replica) (c.key F) c.value
  rcases hq with rfl | rfl
  · refine h.advance hc rfl rfl rfl (fun _ => ⟨rfl,rfl,fun v hv => hv⟩) fun hk hp => ?_
    refine ⟨hp,fun hset hcl => ?_⟩
    rwa [← hok hset hcl,if_pos hk.symm] at hre
  · obtain ⟨redis,refresh,heq,hrf⟩ := command_rest (r := s.replica) (c.key F) c.value
    rw [heq] at hre ⊢
    refine h.advance hc rfl rfl ?_ (fun hk => ⟨rfl,?_,fun v hv => ?_⟩) fun hk hp => ?_
    · rcases hrf with rfl | rfl
      · rfl
      · exact FlagRefresh.isIdle_without _ _
    · exact hre.trans (if_neg fun heq => hk heq.symm)
    · rcases hrf with rfl | rfl
      · exact hv
      · exact hv.without hk
    · exact ⟨hp,fun _ _ => hre.trans (if_pos hk.symm)⟩

theorem Sound.ret (hr : s.replica.ret n = some r) : Sound F k ⟨r,s.track F k (.ret n)⟩ := by
  obtain ⟨c,ok,hc,rfl⟩ := ret_eq hr
  have htr : s.track F k (.ret n) = returned s.tracker n ⟨c,.written ok⟩ := by
    simp [track,hc]
  rw [htr]
  refine ⟨h.polled,fun hid m d hd => h.alone hid m d (get_del_eq_some.mp hd).2,
    fun m d hd => h.dropped m d (get_del_eq_some.mp hd).2,?_⟩
  unfold returned
  obtain ⟨replica,tracker⟩ := s
  split
  · rename_i ht
    subst ht
    obtain ⟨d,hd⟩ := h.tracks
    obtain rfl := some.inj (hd.call.symm.trans hc)
    cases ok with
    | false => trivial
    | true =>
      have hid : replica.refresh.isIdle = true := by
        cases hre : replica.refresh.isIdle with
        | true => rfl
        | false => exact absurd hd.key (h.alone hre n _ hc)
      refine ⟨hd.key,fun m e he hek => ?_,hd.progress.1,fun hcl => hd.progress.2 rfl hcl,?_,
        h.dropped n _ hc⟩
      · obtain ⟨hne,he⟩ := get_del_eq_some.mp he
        exact hne (hd.only m e he hek)
      · cases hre : replica.refresh with
        | idle => trivial
        | _ =>
          rw [hre] at hid
          cases hid
  · rename_i ht
    by_cases hk : c.key F = k
    · cases tracker with
      | quiet => trivial
      | standing d => exact absurd hk (h.tracks.free n _ hc)
      | sole m =>
        obtain ⟨d,hd⟩ := h.tracks
        exact absurd (congrArg FlagTracker.sole (hd.only n _ hc hk).symm) ht
    · refine h.tracks.frame ⟨fun m d hdk => ?_,rfl,rfl,fun d hd => hd⟩ fun d hd => hd.refresh
      rw [get_del_eq_some]
      refine ⟨And.right,fun hd => ⟨fun hm => ?_,hd⟩⟩
      rw [hm,hc] at hd
      cases hd
      exact hk hdk

theorem Sound.remote {key : GoString}
    (hc : r.calls = s.replica.calls) (hde : r.defaults = s.replica.defaults)
    (hs : r.snapshot = s.replica.snapshot)
    (hre : r.refresh = s.replica.refresh ∨ r.refresh = s.replica.refresh.without key)
    (hra : key ≠ k → r.read k = s.replica.read k) :
    Sound F k ⟨r,if key = k then .quiet else s.tracker⟩ := by
  have hid : r.refresh.isIdle = s.replica.refresh.isIdle := by
    rcases hre with hr | hr
    · rw [hr]
    · rw [hr,FlagRefresh.isIdle_without]
  refine ⟨fun hr => h.polled (hid ▸ hr),fun hr => hc ▸ h.alone (hid ▸ hr),
    hc ▸ hde ▸ h.dropped,?_⟩
  split
  · trivial
  · rename_i hk
    refine h.tracks.frame ⟨fun m d _ => by rw [hc],by rw [hs],hra hk,
      fun d hd => hde ▸ hd⟩ fun d hd => ?_
    rcases hre with hr | hr
    · exact hr ▸ hd.refresh
    · exact hr ▸ hd.refresh.without hk

theorem Sound.refreshed {q : FlagRefresh} (hb : q.isIdle = false → F.client = true ∧
      ∀ n d, s.replica.calls.get n = some d → d.change.key F ≠ k)
    (hk : ∀ c, s.replica.Standing F k c → q.Keeps k c.value) :
    Sound F k ⟨{ s.replica with refresh := q },s.tracker⟩ where
  polled hq := (hb hq).1
  alone hq := (hb hq).2
  dropped := h.dropped
  tracks := h.tracks.frame ⟨fun _ _ _ => Iff.rfl,rfl,rfl,fun _ hd => hd⟩ hk

theorem Sound.scan (hok : Free F k s.replica)
    (hr : s.replica.scan F = some r) : Sound F k ⟨r,s.tracker⟩ := by
  unfold FlagReplica.scan at hr
  split at hr
  · split at hr
    · rename_i hcl
      cases hr
      refine h.refreshed (fun _ => ⟨hcl,free_iff.mp hok⟩) fun c hc hv => ?_
      have hre := hc.stored hcl
      obtain ⟨b,hb⟩ := isSome_iff_exists.mp hv
      obtain ⟨val,hva,-⟩ := map_eq_some_iff.mp (hre.trans hb)
      refine mem_filter.mpr ⟨List.mem_map.mpr ⟨(k,val),?_,rfl⟩,?_⟩
      · exact ((iterates_toList s.replica.redis).mem_iff k val).mpr hva
      · exact hc.key ▸ c.keySpace_isPrefixOf_key F
    · cases hr
  · cases hr

theorem Sound.scanned {keys : List GoString}
    (hr : s.replica.scanned keys = some r) : Sound F k ⟨r,s.tracker⟩ := by
  unfold FlagReplica.scanned at hr
  split at hr
  · rename_i throughout hs
    have hb : s.replica.refresh.isIdle = false := by rw [hs]; rfl
    split at hr
    · rename_i hke
      cases hr
      refine h.refreshed (fun _ => ⟨h.polled hb,h.alone hb⟩) fun c hc => ?_
      have hk := hc.keeps hs
      cases hv : c.value with
      | none => exact .inl (get_empty k)
      | some b => exact .inr ⟨hke.1 k (hk (by rw [hv]; rfl)),get_empty k⟩
    · cases hr
  · cases hr

theorem Sound.get (hr : s.replica.get = some r) : Sound F k ⟨r,s.tracker⟩ := by
  unfold FlagReplica.get at hr
  split at hr
  · rename_i key pending next hre
    have hb : s.replica.refresh.isIdle = false := by rw [hre]; rfl
    have hk (c : FlagChange) (hc : s.replica.Standing F k c) :
        next.get k = c.value ∨ k ∈ key :: pending ∧ next.get k = none := hc.keeps hre
    have hra (c : FlagChange) (hc : s.replica.Standing F k c) :
        s.replica.read k = c.value := hc.stored (h.polled hb)
    split at hr
    · rename_i hm
      cases hr
      refine h.refreshed (fun _ => ⟨h.polled hb,h.alone hb⟩) fun c hc => ?_
      rcases hk c hc with heq | ⟨hme,hn⟩
      · exact .inl heq
      · rcases mem_cons.mp hme with rfl | hme
        · refine .inl (hn.trans ?_)
          rw [← hra c hc,FlagReplica.read,hm]
          rfl
        · exact .inr ⟨hme,hn⟩
    · rename_i val hv
      cases hr
      refine h.refreshed (fun _ => ⟨h.polled hb,h.alone hb⟩) fun c hc => ?_
      by_cases hke : k = key
      · subst hke
        refine .inl ((get_put_self _ _ _).trans ?_)
        rw [← hra c hc,FlagReplica.read,hv]
        rfl
      · rcases hk c hc with heq | ⟨hme,hn⟩
        · exact .inl ((get_put_ne _ _ hke).trans heq)
        · exact .inr ⟨(mem_cons.mp hme).resolve_left hke,
            (get_put_ne _ _ hke).trans hn⟩
  · cases hr

theorem Sound.store (hr : s.replica.store = some r) : Sound F k ⟨r,s.tracker⟩ := by
  unfold FlagReplica.store at hr
  split at hr
  · rename_i next hre
    cases hr
    have hb : s.replica.refresh.isIdle = false := by rw [hre]; rfl
    refine ⟨nofun,nofun,h.dropped,?_⟩
    obtain ⟨replica,tracker⟩ := s
    cases tracker with
    | quiet => trivial
    | sole n =>
      obtain ⟨d,hd⟩ := h.tracks
      exact absurd hd.key (h.alone hb n d hd.call)
    | standing c =>
      have hc : replica.Standing F k c := h.tracks
      have hs : next.get k = c.value :=
        (hc.keeps hre).resolve_right fun hm => not_mem_nil hm.1
      exact { hc with snapshot := hs, refresh := trivial }
  · cases hr

theorem Sound.fail (hr : s.replica.fail = some r) : Sound F k ⟨r,s.tracker⟩ := by
  unfold FlagReplica.fail at hr
  split at hr
  · cases hr
  · cases hr
    exact h.refreshed nofun fun _ _ => trivial

theorem sound_step {a : FlagReplica.Act} (hok : Apart F k s a)
    (hs : s.step F k a = some s') : Sound F k s' := by
  obtain ⟨r,hr,rfl⟩ := map_eq_some_iff.mp hs
  cases a with
  | start n c => exact h.startCall hok hr
  | update n => exact h.update hr
  | write n reply => exact h.write hr
  | ret n => exact h.ret hr
  | remoteSet key val =>
    cases hr
    refine h.remote rfl rfl rfl (.inl rfl) fun hk => ?_
    simp [redisSet,FlagReplica.read]
    rw [get_put_ne _ _ (Ne.symm hk)]
  | remoteDel key =>
    cases hr
    refine h.remote rfl rfl rfl (.inr rfl) fun hk => ?_
    simp [redisDel,FlagReplica.read]
    rw [get_del_ne _ (Ne.symm hk)]
  | scan => exact h.scan hok hr
  | scanned keys => exact h.scanned hr
  | get => exact h.get hr
  | store => exact h.store hr
  | fail => exact h.fail hr

end

end LoggedFlags

namespace FlagReplica

variable {F : FlagSpace} {k : GoString} {r : FlagReplica} {c : FlagChange}

def serviceOverride (F : FlagSpace) (r : FlagReplica) (flag serviceID : GoString) : Option Bool :=
  if serviceID ≠ [] then r.snapshot.get (F.serviceKey flag serviceID) else none

def Obeys (F : FlagSpace) (r : FlagReplica) : FlagChange → Prop
  | .set flag enabled =>
      ∀ serviceID, r.isEnabled F flag serviceID =
        (r.serviceOverride F flag serviceID).getD enabled
  | .setForService flag serviceID enabled =>
      serviceID ≠ [] → r.isEnabled F flag serviceID = enabled
  | .delete flag serviceID =>
      if serviceID ≠ [] then r.isEnabled F flag serviceID = r.isEnabled F flag []
      else ∀ svc, r.isEnabled F flag svc = (r.serviceOverride F flag svc).getD
        ((r.defaults.get flag).getD (F.defaultFlags flag))
  | .deleteGlobal flag =>
      ∀ serviceID, r.isEnabled F flag serviceID =
        (r.serviceOverride F flag serviceID).getD (F.defaultFlags flag)

theorem isEnabled_eq (F : FlagSpace) (r : FlagReplica) (flag serviceID : GoString) :
    r.isEnabled F flag serviceID = (r.serviceOverride F flag serviceID).getD
      ((r.snapshot.get (F.globalKey flag)).getD
        ((r.defaults.get flag).getD (F.defaultFlags flag))) := by
  unfold isEnabled serviceOverride
  split
  · rename_i val hv
    rw [hv]
    rfl
  · rename_i hn
    rw [hn]
    split
    · rename_i val hv
      rw [hv]
      rfl
    · rename_i hg
      rw [hg]
      rfl

theorem Standing.obeys (h : r.Standing F k c) : r.Obeys F c := by
  have hs : r.snapshot.get (c.key F) = c.value := h.key.symm ▸ h.snapshot
  cases c with
  | set flag enabled =>
    intro serviceID
    rw [isEnabled_eq]
    simp [FlagChange.key,FlagChange.value] at hs
    rw [hs,getD_some]
  | setForService flag serviceID enabled =>
    intro hne
    rw [isEnabled_eq,serviceOverride,if_pos hne]
    simp [FlagChange.key,FlagChange.value] at hs
    rw [hs,getD_some]
  | delete flag serviceID =>
    simp only [FlagChange.key,FlagChange.value] at hs
    simp only [Obeys]
    split
    · rename_i hne
      rw [if_pos hne] at hs
      rw [isEnabled_eq,isEnabled_eq,serviceOverride,if_pos hne,hs]
      rfl
    · rename_i heq
      rw [if_neg heq] at hs
      intro svc
      rw [isEnabled_eq,hs,getD_none]
  | deleteGlobal flag =>
    intro serviceID
    have hd : r.defaults.get flag = none := h.dropped
    simp [FlagChange.key,FlagChange.value] at hs
    rw [isEnabled_eq,hs,hd,getD_none,getD_none]

end FlagReplica

namespace LoggedFlags

open FlagReplica

theorem flags_read_their_own_writes {F : FlagSpace} {k : GoString}
    {redis : GoMap GoString GoString} {overrides : GoMap GoString Bool} {s : LoggedFlags}
    (h : Run.Reaches (step F k) (Apart F k) (start redis overrides) s) {c : FlagChange}
    (hc : s.tracker = .standing c) : s.replica.Obeys F c := by
  have hso : Sound F k s :=
    h.invariant (Sound F k) (sound_start redis overrides) fun _ _ _ hs hok hse =>
      sound_step hs hok hse
  have hst : s.replica.Tracks F k (.standing c) := hc ▸ hso.tracks
  exact Standing.obeys hst

def sageFlags : FlagSpace := ⟨"sage:flags:".toList,true,fun _ => false⟩

def hedgingKey : GoString := sageFlags.globalKey "hedging".toList

theorem refresh_across_a_set_undoes_it :
    ∃ s : LoggedFlags, Run.Reaches (step sageFlags hedgingKey) (fun _ _ => True) (start ∅ ∅) s ∧
      s.tracker = .standing (.set "hedging".toList true) ∧
      s.replica.read hedgingKey = some true ∧
      s.replica.isEnabled sageFlags "hedging".toList [] = false :=
  Run.reaches [.scan,.scanned [],.start 0 (.set "hedging".toList true),.update 0,.write 0 .ok,
    .ret 0,.store] (by decide +kernel)

theorem set_survives_the_next_refresh :
    ∃ s : LoggedFlags, Run.Reaches (step sageFlags hedgingKey) (Apart sageFlags hedgingKey)
        (start ∅ ∅) s ∧
      s.tracker = .standing (.set "hedging".toList true) ∧
      s.replica.isEnabled sageFlags "hedging".toList [] = true :=
  Run.reaches_and [.start 0 (.set "hedging".toList true),.update 0,.write 0 .ok,.ret 0,.scan,
    .scanned [hedgingKey],.get,.store] (by decide +kernel)
    fun _ hr ht => flags_read_their_own_writes hr ht []

end LoggedFlags

end SageGateway
