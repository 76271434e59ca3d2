import SageGateway.Subscription.FlatReader
import SageGateway.Subscription.Ids

namespace SageGateway

open List Option GoMap

theorem rawReplayID_injective : Function.Injective rawReplayID := by
  intro m n h
  unfold rawReplayID at h
  rw [append_assoc] at h
  have hd := congrArg (Nat.ofDigitChars 10 · 0)
    (append_cancel_right (append_cancel_left h))
  simpa [Nat.ofDigitChars_toDigits] using hd

namespace IdView

theorem mem_assigned {R : FrameReader} {n : Nat} {subs : List (RawID × Subscription)}
    {raw clientID : RawID} (h : (raw,clientID) ∈ assigned R n subs) :
    ∃ k, n < k ∧ k ≤ n + (assigned R n subs).length ∧ raw = rawReplayID k := by
  induction subs generalizing n with
  | nil => cases h
  | cons e subs ih =>
    unfold assigned at h ⊢
    split_ifs at h ⊢ with hs
    · exact ih h
    · rcases mem_cons.mp h with heq | hm
      · cases heq
        exact ⟨n + 1,by omega,by simp,rfl⟩
      · obtain ⟨k,hlt,hle,hr⟩ := ih hm
        refine ⟨k,by omega,?_,hr⟩
        rw [length_cons]
        omega

theorem assigned_raws_nodup (R : FrameReader) (n : Nat) (subs : List (RawID × Subscription)) :
    ((assigned R n subs).map Prod.fst).Nodup := by
  induction subs generalizing n with
  | nil => exact nodup_nil
  | cons e subs ih =>
    unfold assigned
    split_ifs
    · exact ih n
    · refine nodup_cons.mpr ⟨?_,ih (n + 1)⟩
      intro hm
      obtain ⟨⟨raw,clientID⟩,he,hr⟩ := List.mem_map.mp hm
      obtain ⟨k,hlt,-,hk⟩ := mem_assigned he
      have hkn := rawReplayID_injective (hk.symm.trans hr)
      omega

theorem assigned_clients_sublist (R : FrameReader) (n : Nat) (subs : List (RawID × Subscription)) :
    ((assigned R n subs).map Prod.snd).Sublist (subs.map Prod.fst) := by
  induction subs generalizing n with
  | nil => exact .slnil
  | cons e subs ih =>
    obtain ⟨c,sub⟩ := e
    unfold assigned
    split_ifs
    · exact (ih n).cons c
    · exact (ih (n + 1)).cons_cons c

end IdView

structure MappedRegistry where
  reg : Registry
  given : List RawID
  latest : GoMap RawID RawID

namespace MappedRegistry

def start (dupLimits : Option (Int → Int × Int)) : MappedRegistry := ⟨.new dupLimits,[],∅⟩

def givenAfter (given : List RawID) : IdEvent → List RawID
  | .remapped _ _ _ x => x :: given
  | .established sub => sub.id :: given
  | .replayed _ => []
  | _ => given

def latestAfter (R : FrameReader) (replays : Nat) (latest : GoMap RawID RawID) :
    IdEvent → GoMap RawID RawID
  | .replayed subs => latest.putAll ((IdView.assigned R replays subs).map Prod.swap)
  | _ => latest

def step (R : FrameReader) (s : MappedRegistry) (a : Registry.Act) : Option MappedRegistry :=
  (s.reg.step R a).map fun r =>
    ⟨r,givenAfter s.given (s.reg.idEvent R a),
      latestAfter R s.reg.replays s.latest (s.reg.idEvent R a)⟩

def AckedIn (replay latest : GoMap RawID RawID) (c : RawID) : Prop :=
  ∀ raw, latest.get c = some raw → replay.get raw ≠ some c

def Acked (s : MappedRegistry) (c : RawID) : Prop := AckedIn s.reg.replay s.latest c

def Exact (s : MappedRegistry) : Prop :=
  ∀ x c, s.reg.toClient.get x = some c ↔
    ∃ sub, s.reg.active.get c = some sub ∧ sub.endpointID = x ∧ sub.endpointID ≠ sub.id ∧ s.Acked c

def NotGiven (given : List RawID) : IdEvent → Prop
  | .remapped _ _ _ x => x ∉ given
  | .established sub => sub.id ∉ given
  | _ => True

instance (given : List RawID) : (ev : IdEvent) → Decidable (NotGiven given ev)
  | .remapped _ _ _ x => inferInstanceAs (Decidable (x ∉ given))
  | .established sub => inferInstanceAs (Decidable (sub.id ∉ given))
  | .quiet | .closed _ | .closedAll | .orphanAck _ | .refusedAck .. | .replayed _ => .isTrue trivial

def SupplierDistinct (R : FrameReader) (s : MappedRegistry) (a : Registry.Act) : Prop :=
  NotGiven s.given (s.reg.idEvent R a)

def Unmapped (s : MappedRegistry) (c : RawID) : Prop :=
  ∀ sub ∈ s.reg.active.get c, sub.endpointID = sub.id

instance (s : MappedRegistry) : Decidable (∀ c, s.Unmapped c) :=
  decidable_of_iff (∀ e ∈ s.reg.active.toList, e.2.endpointID = e.2.id)
    ⟨fun h c sub hc => h (c,sub) (((GoMap.iterates_toList _).mem_iff c sub).mpr hc),
      fun h e he => h e.1 e.2 (((GoMap.iterates_toList _).mem_iff e.1 e.2).mp he)⟩

def Kept (s : MappedRegistry) : IdEvent → Prop
  | .replayed _ => ∀ c, s.Unmapped c
  | .established sub => s.Unmapped sub.id
  | .remapped raw c sub x => x = sub.id ∨ s.latest.get c = some raw ∨ s.Acked c
  | _ => True

instance (s : MappedRegistry) : (ev : IdEvent) → Decidable (s.Kept ev)
  | .replayed _ => inferInstanceAs (Decidable (∀ c, s.Unmapped c))
  | .established sub =>
      inferInstanceAs (Decidable (∀ old ∈ s.reg.active.get sub.id, old.endpointID = old.id))
  | .remapped raw c sub x =>
      inferInstanceAs (Decidable (x = sub.id ∨ s.latest.get c = some raw ∨
        ∀ raw' ∈ s.latest.get c, s.reg.replay.get raw' ≠ some c))
  | .quiet | .closed _ | .closedAll | .orphanAck _ | .refusedAck .. => .isTrue trivial

def KeepsMapping (R : FrameReader) (s : MappedRegistry) (a : Registry.Act) : Prop :=
  s.Kept (s.reg.idEvent R a)

instance (R : FrameReader) (s : MappedRegistry) (a : Registry.Act) :
    Decidable (s.SupplierDistinct R a) := inferInstanceAs (Decidable (NotGiven _ _))

instance (R : FrameReader) (s : MappedRegistry) (a : Registry.Act) :
    Decidable (s.KeepsMapping R a) := inferInstanceAs (Decidable (s.Kept _))

structure MapInv (v : IdView) (given : List RawID) (latest : GoMap RawID RawID) : Prop where
  named : ∀ c sub, v.active.get c = some sub → sub.id = c
  mapped : ∀ x c, v.toClient.get x = some c ↔
    ∃ sub, v.active.get c = some sub ∧ sub.endpointID = x ∧ x ≠ c
  unacked : ∀ c sub, v.active.get c = some sub → ¬AckedIn v.replay latest c → sub.endpointID = c
  fresh : ∀ c sub, v.active.get c = some sub → sub.endpointID ≠ c → sub.endpointID ∈ given
  owner : ∀ c raw, latest.get c = some raw → v.replay.get raw = none ∨ v.replay.get raw = some c
  bound : ∀ n, v.replays < n → v.replay.get (rawReplayID n) = none
  known : ∀ c raw, latest.get c = some raw → ∃ n, n ≤ v.replays ∧ raw = rawReplayID n

section Preservation

variable {R : FrameReader} {v : IdView} {given : List RawID} {latest : GoMap RawID RawID}

variable {c : RawID} {sub : Subscription}

theorem MapInv.owned (h : MapInv v given latest) {d : RawID}
    (hc : v.active.get c = some sub) (hne : sub.endpointID ≠ c)
    (hd : v.toClient.get sub.endpointID = some d) : d = c := by
  have hs := (h.mapped sub.endpointID c).mpr ⟨sub,hc,rfl,hne⟩
  rw [hs] at hd
  exact (some.inj hd).symm

theorem MapInv.get_unmap (h : MapInv v given latest)
    (hc : v.active.get c = some sub) (x d : RawID) :
    (v.unmap sub).get x = some d ↔ d ≠ c ∧ v.toClient.get x = some d := by
  have hid := h.named c sub hc
  have ho : ∀ y, y ≠ sub.endpointID ∨ sub.endpointID = c → v.toClient.get y ≠ some c := by
    intro y hy hg
    obtain ⟨sub',hs',heq,hne⟩ := (h.mapped y c).mp hg
    rw [hc] at hs'
    cases hs'
    rcases hy with hy | hy
    · exact hy heq.symm
    · exact hne (heq.symm.trans hy)
  unfold IdView.unmap
  rw [hid]
  split_ifs with hne
  · rw [get_del]
    split_ifs with hx
    · constructor
      · nofun
      · rintro ⟨hd,hg⟩
        rw [hx] at hg
        exact absurd (h.owned hc hne hg) hd
    · constructor
      · intro hg
        refine ⟨?_,hg⟩
        rintro rfl
        exact ho x (.inl hx) hg
      · exact fun hg => hg.2
  · constructor
    · intro hg
      refine ⟨?_,hg⟩
      rintro rfl
      exact ho x (.inr (not_not.mp hne)) hg
    · exact fun hg => hg.2

theorem ackedIn_del {replay : GoMap RawID RawID} (raw : RawID)
    (h : AckedIn replay latest c) : AckedIn (replay.del raw) latest c := by
  intro raw' hl hr
  rw [get_del] at hr
  split_ifs at hr
  exact h raw' hl hr

section

variable (h : MapInv v given latest)

include h

theorem MapInv.delReplay (raw : RawID) :
    MapInv { v with replay := v.replay.del raw } given latest where
  __ := h
  unacked c sub hc hn := h.unacked c sub hc fun ha => hn (ackedIn_del raw ha)
  owner c raw' hl := by
    simp only [get_del]
    split_ifs
    · exact .inl rfl
    · exact h.owner c raw' hl
  bound n hn := by
    simp only [get_del]
    split_ifs
    · rfl
    · exact h.bound n hn

theorem MapInv.forget
    (hs : v.active.get sub.id = some sub) : MapInv (v.forget sub) given latest where
  __ := h
  named c sub' hc := by
    simp only [IdView.forget,get_del] at hc
    split_ifs at hc
    exact h.named c sub' hc
  mapped x c := by
    have hk : ∀ sub', (v.forget sub).active.get c = some sub' ↔
        c ≠ sub.id ∧ v.active.get c = some sub' := by
      simp only [IdView.forget,get_del]
      split_ifs with hc <;> simp [hc]
    have hg : (v.forget sub).toClient.get x = some c ↔
        c ≠ sub.id ∧ v.toClient.get x = some c := h.get_unmap hs x c
    rw [hg,h.mapped]
    constructor
    · rintro ⟨hc,sub',hs',hid,hne⟩
      exact ⟨sub',(hk sub').mpr ⟨hc,hs'⟩,hid,hne⟩
    · rintro ⟨sub',hs',hid,hne⟩
      obtain ⟨hc,hge⟩ := (hk sub').mp hs'
      exact ⟨hc,sub',hge,hid,hne⟩
  unacked c sub' hc hn := by
    simp only [IdView.forget,get_del] at hc
    split_ifs at hc
    exact h.unacked c sub' hc hn
  fresh c sub' hc hne := by
    simp only [IdView.forget,get_del] at hc
    split_ifs at hc
    exact h.fresh c sub' hc hne

theorem MapInv.closedAll : MapInv { v with active := ∅, toClient := ∅ } given latest where
  __ := h
  named := by simp
  mapped := by simp
  unacked := by simp
  fresh := by simp

theorem MapInv.established (hid : sub.endpointID = sub.id)
    (hf : ∀ old, v.active.get sub.id = some old → old.endpointID = old.id) :
    MapInv { v with active := v.active.put sub.id sub } (sub.id :: given) latest where
  __ := h
  named c sub' hc := by
    simp [get_put] at hc
    split_ifs at hc with hce
    · cases hc
      exact hce.symm
    · exact h.named c sub' hc
  mapped x c := by
    rw [h.mapped]
    simp [get_put]
    split_ifs with hce
    · subst hce
      constructor
      · rintro ⟨old,hold,hx,hne⟩
        have hs := hf old hold
        rw [h.named _ old hold] at hs
        exact absurd (hx.symm.trans hs) hne
      · rintro ⟨sub',hs',hx,hne⟩
        cases hs'
        exact absurd (hx.symm.trans hid) hne
    · rfl
  unacked c sub' hc hn := by
    simp [get_put] at hc
    split_ifs at hc with hce
    · cases hc
      exact hid.trans hce.symm
    · exact h.unacked c sub' hc hn
  fresh c sub' hc hne := by
    simp [get_put] at hc
    split_ifs at hc with hce
    · cases hc
      exact absurd (hid.trans hce.symm) hne
    · exact .tail _ (h.fresh c sub' hc hne)

theorem MapInv.remap_mapped {x : RawID}
    (hc : v.active.get c = some sub) (hx : x ∉ given) (y d : RawID) :
    (v.remap c sub x).toClient.get y = some d ↔
      ∃ sub', (v.remap c sub x).active.get d = some sub' ∧ sub'.endpointID = y ∧ y ≠ d := by
  have hid := h.named c sub hc
  have ha : ∀ e, (v.remap c sub x).active.get e =
      if e = c then some { sub with endpointID := x } else v.active.get e := by
    intro e
    simp [IdView.remap,get_put]
  have ht : (v.remap c sub x).toClient.get y = some d ↔
      (y = x ∧ x ≠ c ∧ d = c) ∨ ((y ≠ x ∨ x = c) ∧ d ≠ c ∧ v.toClient.get y = some d) := by
    simp [IdView.remap,hid]
    by_cases hxc : x = c
    · simp [hxc,h.get_unmap hc]
    · by_cases hyx : y = x
      · simp [hxc,hyx,eq_comm]
      · simp [hxc,get_put,hyx,h.get_unmap hc]
  rw [ht]
  by_cases hdc : d = c
  · subst hdc
    simp [ha,some.injEq]
    constructor
    · rintro ⟨rfl,hne⟩
      exact ⟨rfl,hne⟩
    · rintro ⟨rfl,hne⟩
      exact ⟨rfl,hne⟩
  · simp [ha,hdc]
    rw [← h.mapped]
    constructor
    · exact fun hyd => hyd.2
    · intro hy
      refine ⟨?_,hy⟩
      refine .inl ?_
      rintro rfl
      obtain ⟨sub',hs',heq,hne⟩ := (h.mapped y d).mp hy
      exact hx (heq ▸ h.fresh d sub' hs' (heq ▸ hne))

theorem MapInv.remap {x : RawID} (hc : v.active.get c = some sub) (hx : x ∉ given)
    (ha : x = c ∨ AckedIn v.replay latest c) :
    MapInv (v.remap c sub x) (x :: given) latest where
  __ := h
  named d sub' hd := by
    simp [IdView.remap,get_put] at hd
    split_ifs at hd with hdc
    · cases hd
      exact (h.named c sub hc).trans hdc.symm
    · exact h.named d sub' hd
  mapped := h.remap_mapped hc hx
  unacked d sub' hd hn := by
    simp [IdView.remap,get_put] at hd
    split_ifs at hd with hdc
    · cases hd
      subst hdc
      exact ha.resolve_right hn
    · exact h.unacked d sub' hd hn
  fresh d sub' hd hne := by
    simp [IdView.remap,get_put] at hd
    split_ifs at hd with hdc
    · cases hd
      exact .head _
    · exact .tail _ (h.fresh d sub' hd hne)

end

theorem rawReplayID_notMem_assigned {replays n : Nat} {subs : List (RawID × Subscription)}
    (hn : n ≤ replays ∨ replays + (IdView.assigned R replays subs).length < n) :
    rawReplayID n ∉ (IdView.assigned R replays subs).map Prod.fst := by
  intro hm
  obtain ⟨⟨raw,c⟩,he,hr⟩ := List.mem_map.mp hm
  obtain ⟨k,hlt,hle,hk⟩ := IdView.mem_assigned he
  have hkn := rawReplayID_injective (hk.symm.trans hr)
  omega

theorem get_latest_putAll {pairs : List (RawID × RawID)}
    (hn : ((pairs.map Prod.swap).map Prod.fst).Nodup) {raw : RawID}
    (h : (latest.putAll (pairs.map Prod.swap)).get c = some raw) :
    (raw,c) ∈ pairs ∨ latest.get c = some raw := by
  by_cases hm : c ∈ (pairs.map Prod.swap).map Prod.fst
  · obtain ⟨⟨c',raw'⟩,he,rfl⟩ := List.mem_map.mp hm
    cases (get_putAll_of_mem hn he).symm.trans h
    obtain ⟨⟨raw'',c''⟩,he',hs⟩ := List.mem_map.mp he
    cases hs
    exact .inl he'
  · rw [get_putAll_of_notMem hm] at h
    exact .inr h

theorem MapInv.replayed (h : MapInv v given latest) {subs : List (RawID × Subscription)}
    (hs : v.active.Iterates subs)
    (hp : ∀ c sub, v.active.get c = some sub → sub.endpointID = sub.id) :
    MapInv (v.apply R (.replayed subs)) []
      (latest.putAll ((IdView.assigned R v.replays subs).map Prod.swap)) := by
  have hr := IdView.assigned_raws_nodup R v.replays subs
  have hcl : (((IdView.assigned R v.replays subs).map Prod.swap).map Prod.fst).Nodup := by
    rw [List.map_map]
    exact hs.nodup.sublist (IdView.assigned_clients_sublist R v.replays subs)
  refine ⟨h.named,h.mapped,?_,?_,?_,?_,?_⟩
  · intro c sub hc _
    exact (hp c sub hc).trans (h.named c sub hc)
  · intro c sub hc hne
    exact absurd ((hp c sub hc).trans (h.named c sub hc)) hne
  · intro c raw hl
    change (v.replay.putAll (IdView.assigned R v.replays subs)).get raw = none ∨
      (v.replay.putAll (IdView.assigned R v.replays subs)).get raw = some c
    rcases get_latest_putAll hcl hl with hm | hla
    · exact .inr (get_putAll_of_mem hr hm)
    · obtain ⟨n,hn,rfl⟩ := h.known c raw hla
      rw [get_putAll_of_notMem (rawReplayID_notMem_assigned (.inl hn))]
      exact h.owner c _ hla
  · intro n hn
    change v.replays + (IdView.assigned R v.replays subs).length < n at hn
    change (v.replay.putAll (IdView.assigned R v.replays subs)).get (rawReplayID n) = none
    rw [get_putAll_of_notMem (rawReplayID_notMem_assigned (.inr hn))]
    exact h.bound n (by omega)
  · intro c raw hl
    change ∃ n, n ≤ v.replays + (IdView.assigned R v.replays subs).length ∧ raw = rawReplayID n
    rcases get_latest_putAll hcl hl with hm | hla
    · obtain ⟨k,-,hle,hk⟩ := IdView.mem_assigned hm
      exact ⟨k,hle,hk⟩
    · obtain ⟨n,hn,hra⟩ := h.known c raw hla
      exact ⟨n,by omega,hra⟩

theorem MapInv.exact {s : MappedRegistry} (h : MapInv s.reg.view s.given s.latest) : s.Exact := by
  intro x c
  have ha : ∀ sub, s.reg.active.get c = some sub → sub.endpointID ≠ c → s.Acked c := by
    intro sub hc hne
    by_contra hn
    exact hne (h.unacked c sub hc hn)
  refine (h.mapped x c).trans ?_
  constructor
  · rintro ⟨sub,hc,rfl,hne⟩
    exact ⟨sub,hc,rfl,by rwa [h.named c sub hc],ha sub hc hne⟩
  · rintro ⟨sub,hc,rfl,hne,-⟩
    exact ⟨sub,hc,rfl,by rwa [h.named c sub hc] at hne⟩

theorem MapInv.step {s s' : MappedRegistry} {a : Registry.Act}
    (h : MapInv s.reg.view s.given s.latest) (hd : s.SupplierDistinct R a)
    (hk : s.KeepsMapping R a) (hs : s.step R a = some s') :
    MapInv s'.reg.view s'.given s'.latest := by
  obtain ⟨r',hr',rfl⟩ := map_eq_some_iff.mp hs
  have hf := Registry.idEvent_fits hr'
  rw [Registry.view_step hr']
  unfold SupplierDistinct at hd
  unfold KeepsMapping at hk
  cases hev : s.reg.idEvent R a with
  | quiet => exact h
  | closed sub =>
    rw [hev] at hf
    obtain ⟨c,hc⟩ := hf
    exact h.forget (h.named c sub hc ▸ hc)
  | closedAll => exact h.closedAll
  | orphanAck raw => exact h.delReplay raw
  | refusedAck raw sub =>
    rw [hev] at hf
    obtain ⟨c,hc⟩ := hf
    exact (h.delReplay raw).forget (h.named c sub hc ▸ hc)
  | remapped raw c sub x =>
    rw [hev] at hf hd hk
    refine (h.delReplay raw).remap hf.1 hd ?_
    rcases hk with hx | hl | ha
    · exact .inl (hx.trans (h.named c sub hf.1))
    · refine .inr fun raw' hl' hr => ?_
      rw [hl] at hl'
      cases hl'
      simp at hr
    · exact .inr (ackedIn_del raw ha)
  | established sub =>
    rw [hev] at hf hk
    exact h.established hf hk
  | replayed subs =>
    rw [hev] at hf hk
    exact h.replayed hf hk

theorem MapInv.start (dupLimits : Option (Int → Int × Int)) :
    MapInv (start dupLimits).reg.view (start dupLimits).given (start dupLimits).latest := by
  refine ⟨?_,?_,?_,?_,?_,?_,?_⟩ <;> simp [MappedRegistry.start,Registry.view,Registry.new]

end Preservation

theorem mapping_exact_of_kept (R : FrameReader) (dupLimits : Option (Int → Int × Int))
    {s : MappedRegistry}
    (h : Run.Reaches (step R) (fun s a => s.SupplierDistinct R a ∧ s.KeepsMapping R a)
      (start dupLimits) s) : s.Exact := by
  have hin : MapInv s.reg.view s.given s.latest := by
    refine h.invariant (fun s => MapInv s.reg.view s.given s.latest) ?_ ?_
    · exact MapInv.start dupLimits
    · intro s a s' hi hok hs
      exact hi.step hok.1 hok.2 hs
  exact hin.exact

section Example

def slotSub (id endpointID request : String) (since : Int) : RawID × Subscription :=
  (id.toList,⟨id.toList,endpointID.toList,"\"slotSubscribe\"".toList,
    "\"slotSubscribe\"".toList,true,slotSubscribe request,since⟩)

def twoRebinds : List Registry.Act :=
  [.client 1 [] (slotSubscribe "1") true,.client 2 [] (slotSubscribe "2") true,
    .endpoint 3 (resultFrame "1" "1"),.endpoint 4 (resultFrame "2" "2"),
    .replay 5 [slotSub "1" "1" "1" 3,slotSub "2" "2" "2" 4] [] [],
    .endpoint 6 (resultFrame "\"sage-replay-1\"" "7"),
    .endpoint 7 (resultFrame "\"sage-replay-2\"" "8"),
    .replay 8 [slotSub "1" "7" "1" 3,slotSub "2" "8" "2" 4] [] [],
    .endpoint 9 (resultFrame "\"sage-replay-3\"" "8"),
    .endpoint 10 (resultFrame "\"sage-replay-4\"" "9")]

theorem replay_ack_deletes_other_mapping :
    ∃ s, Run.Reaches (step flatReader) (SupplierDistinct flatReader) (start none) s ∧ ¬s.Exact := by
  obtain ⟨s,hs,ht,ha,hl,hr⟩ : ∃ s, Run.Reaches (step flatReader)
      (SupplierDistinct flatReader) (start none) s ∧ s.reg.toClient.get "8".toList = none ∧
      s.reg.active.get "1".toList = some (slotSub "1" "8" "1" 3).2 ∧
      s.latest.get "1".toList = some (rawReplayID 3) ∧ s.reg.replay.get (rawReplayID 3) = none :=
    Run.reaches twoRebinds (by decide +kernel)
  refine ⟨s,hs,fun he => ?_⟩
  have hac : s.Acked "1".toList := by
    intro raw hra
    cases hl.symm.trans hra
    rw [hr]
    exact some_ne_none _ |>.symm
  have hm := (he "8".toList "1".toList).mpr ⟨_,ha,by decide,by decide,hac⟩
  cases ht.symm.trans hm

theorem one_rebind_maps_exactly :
    ∃ s : MappedRegistry, s.reg.toClient.get "8".toList = some "2".toList ∧ s.Exact :=
  Run.reached_and (twoRebinds.take 7) (by decide +kernel) fun _ hs _ =>
    mapping_exact_of_kept flatReader none hs

end Example

end MappedRegistry

end SageGateway
