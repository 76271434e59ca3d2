import SageGateway.Subscription.Mapping

namespace SageGateway

open List Option GoMap

structure Held where
  id : RawID
  request : Frame
  deriving DecidableEq

structure HeldRegistry where
  mapping : MappedRegistry
  held : List Held

namespace HeldRegistry

def start (dupLimits : Option (Int → Int × Int)) : HeldRegistry := ⟨.start dupLimits,[]⟩

def drop (held : List Held) (id : RawID) : List Held := held.filter fun h => h.id ≠ id

def heldAfter (held : List Held) : IdEvent → List Held
  | .closed sub => drop held sub.id
  | .closedAll => []
  | .refusedAck _ sub => drop held sub.id
  | .established sub => ⟨sub.id,sub.request⟩ :: held
  | _ => held

def step (R : FrameReader) (s : HeldRegistry) (a : Registry.Act) : Option HeldRegistry :=
  (s.mapping.step R a).map fun m => ⟨m,heldAfter s.held (s.mapping.reg.idEvent R a)⟩

structure Holds (active : GoMap RawID Subscription) (held : List Held) : Prop where
  kept : ∀ h ∈ held, ∃ sub, active.get h.id = some sub ∧ sub.id = h.id ∧ sub.request = h.request
  distinct : (held.map Held.id).Nodup

def KeepsHeld (s : HeldRegistry) : Prop := Holds s.mapping.reg.active s.held

def Unused (v : IdView) : IdEvent → Prop
  | .established sub => v.active.get sub.id = none
  | _ => True

def NoOverwrite (R : FrameReader) (s : HeldRegistry) (a : Registry.Act) : Prop :=
  Unused s.mapping.reg.view (s.mapping.reg.idEvent R a)

instance (v : IdView) (ev : IdEvent) : Decidable (Unused v ev) := by
  cases ev <;> unfold Unused <;> infer_instance

instance (R : FrameReader) (s : HeldRegistry) (a : Registry.Act) : Decidable (NoOverwrite R s a) :=
  inferInstanceAs (Decidable (Unused _ _))

structure HeldInv (v : IdView) (held : List Held) : Prop where
  named : ∀ c sub, v.active.get c = some sub → sub.id = c
  holds : Holds v.active held
  known : ∀ c sub, v.active.get c = some sub → c ∈ held.map Held.id

variable {R : FrameReader} {v : IdView} {held : List Held}

theorem mem_drop {h : Held} {id : RawID} : h ∈ drop held id ↔ h ∈ held ∧ h.id ≠ id := by
  simp [drop]

theorem HeldInv.forget (hi : HeldInv v held) (sub : Subscription) :
    HeldInv (v.forget sub) (drop held sub.id) where
  named c sub' hc := by
    simp only [IdView.forget,get_del] at hc
    split_ifs at hc
    exact hi.named c sub' hc
  holds := by
    refine ⟨?_,hi.holds.distinct.sublist (filter_sublist.map _)⟩
    intro h hm
    obtain ⟨hh,hne⟩ := mem_drop.mp hm
    obtain ⟨sub',hg,hr⟩ := hi.holds.kept h hh
    exact ⟨sub',by simpa [IdView.forget,get_del,hne] using hg,hr⟩
  known c sub' hc := by
    simp only [IdView.forget,get_del] at hc
    split_ifs at hc with hne
    obtain ⟨h,hm,hid⟩ := List.mem_map.mp (hi.known c sub' hc)
    exact List.mem_map.mpr ⟨h,mem_drop.mpr ⟨hm,fun e => hne (hid.symm.trans e)⟩,hid⟩

theorem HeldInv.remap (hi : HeldInv v held) {c x : RawID} {sub : Subscription}
    (hc : v.active.get c = some sub) : HeldInv (v.remap c sub x) held where
  named d sub' hd := by
    simp [IdView.remap,get_put] at hd
    split_ifs at hd with hdc
    · cases hd
      exact (hi.named c sub hc).trans hdc.symm
    · exact hi.named d sub' hd
  holds := by
    refine ⟨?_,hi.holds.distinct⟩
    intro h hm
    obtain ⟨sub',hg,hr⟩ := hi.holds.kept h hm
    by_cases hid : h.id = c
    · rw [hid,hc] at hg
      cases hg
      exact ⟨{ sub with endpointID := x },by simp [IdView.remap,hid],hr⟩
    · exact ⟨sub',by simpa [IdView.remap,get_put,hid] using hg,hr⟩
  known d sub' hd := by
    simp [IdView.remap,get_put] at hd
    split_ifs at hd with hdc
    · exact hdc ▸ hi.known c sub hc
    · exact hi.known d sub' hd

theorem HeldInv.established (hi : HeldInv v held) {sub : Subscription}
    (hf : v.active.get sub.id = none) :
    HeldInv { v with active := v.active.put sub.id sub } (⟨sub.id,sub.request⟩ :: held) where
  named c sub' hc := by
    simp [get_put] at hc
    split_ifs at hc with hce
    · cases hc
      exact hce.symm
    · exact hi.named c sub' hc
  holds := by
    have hn : ∀ h ∈ held, h.id ≠ sub.id := by
      intro h hm heq
      obtain ⟨sub',hg,-⟩ := hi.holds.kept h hm
      rw [heq,hf] at hg
      cases hg
    constructor
    · intro h hm
      rcases mem_cons.mp hm with rfl | hm
      · exact ⟨sub,by simp,rfl,rfl⟩
      · obtain ⟨sub',hg,hr⟩ := hi.holds.kept h hm
        exact ⟨sub',by simpa [get_put,hn h hm] using hg,hr⟩
    · refine nodup_cons.mpr ⟨?_,hi.holds.distinct⟩
      intro hm
      obtain ⟨h,hh,hid⟩ := List.mem_map.mp hm
      exact hn h hh hid
  known c sub' hc := by
    simp [get_put] at hc
    split_ifs at hc with hce
    · simp [hce]
    · exact .tail _ (hi.known c sub' hc)

theorem HeldInv.apply (hi : HeldInv v held) {ev : IdEvent} (hf : ev.Fits v) (hu : Unused v ev) :
    HeldInv (v.apply R ev) (heldAfter held ev) := by
  cases ev with
  | quiet => exact hi
  | closed sub => exact hi.forget sub
  | closedAll => exact ⟨by simp [IdView.apply],⟨by simp [heldAfter],nodup_nil⟩,
      by simp [IdView.apply]⟩
  | orphanAck raw => exact { hi with }
  | refusedAck raw sub =>
    have hdel : HeldInv { v with replay := v.replay.del raw } held := { hi with }
    exact hdel.forget sub
  | remapped raw c sub x =>
    have hdel : HeldInv { v with replay := v.replay.del raw } held := { hi with }
    exact hdel.remap hf.1
  | established sub => exact hi.established hu
  | replayed subs => exact { hi with }

theorem step_spec {s s' : HeldRegistry} {a : Registry.Act} (h : s.step R a = some s') :
    (s.mapping.reg.idEvent R a).Fits s.mapping.reg.view ∧
      s'.mapping.reg.view = s.mapping.reg.view.apply R (s.mapping.reg.idEvent R a) ∧
      s'.held = heldAfter s.held (s.mapping.reg.idEvent R a) := by
  obtain ⟨m,hm,rfl⟩ := map_eq_some_iff.mp h
  obtain ⟨r,hr,rfl⟩ := map_eq_some_iff.mp hm
  exact ⟨Registry.idEvent_fits hr,Registry.view_step hr,rfl⟩

theorem HeldInv.keepsHeld_iff {s s' : HeldRegistry} {a : Registry.Act}
    (hi : HeldInv s.mapping.reg.view s.held) (h : s.step R a = some s') :
    s'.KeepsHeld ↔ s.NoOverwrite R a := by
  obtain ⟨hf,hv,hh⟩ := step_spec h
  constructor
  · intro hk
    unfold NoOverwrite
    cases hev : s.mapping.reg.idEvent R a with
    | established sub =>
      rw [hev] at hh
      refine eq_none_iff_forall_ne_some.mpr fun old hold => ?_
      have hn := hk.distinct
      rw [hh] at hn
      exact (nodup_cons.mp hn).1 (hi.known sub.id old hold)
    | _ => exact trivial
  · intro hu
    have hin := @HeldInv.apply R _ _ hi _ hf hu
    rw [← hv,← hh] at hin
    exact hin.holds

theorem held_kept_iff_no_overwrite (R : FrameReader) (dupLimits : Option (Int → Int × Int))
    {s : HeldRegistry} (h : Run.Reaches (step R) (NoOverwrite R) (start dupLimits) s) :
    s.KeepsHeld ∧ ∀ a s', s.step R a = some s' → (s'.KeepsHeld ↔ s.NoOverwrite R a) := by
  have hin : HeldInv s.mapping.reg.view s.held := by
    refine h.invariant (fun s => HeldInv s.mapping.reg.view s.held) ?_ ?_
    · exact ⟨by simp [start,MappedRegistry.start,Registry.new,Registry.view],
        ⟨by simp [start],nodup_nil⟩,
        by simp [start,MappedRegistry.start,Registry.new,Registry.view]⟩
    · intro s a s' hi hok hst
      obtain ⟨hf,hv,hh⟩ := step_spec hst
      rw [hv,hh]
      exact hi.apply hf hok
  exact ⟨hin.holds,fun a s' hs => hin.keepsHeld_iff hs⟩

section Example

open FlatReader MappedRegistry

def freshAckAfterRebind : List Registry.Act :=
  [.client 1 [] (slotSubscribe "1") true,.endpoint 2 (resultFrame "1" "1"),
    .replay 3 [slotSub "1" "1" "1" 2] [] [],
    .endpoint 4 (resultFrame "\"sage-replay-1\"" "7"),
    .client 5 [slotSub "1" "7" "1" 2] (slotSubscribe "2") true,.endpoint 6 (resultFrame "2" "1")]

theorem later_ack_replaces_held_subscription :
    ∃ s, Run.Reaches (step flatReader) (fun s => SupplierDistinct flatReader s.mapping)
    (start none) s ∧
      ¬s.KeepsHeld :=
  Run.reaches_of (P := fun s => ¬(s.held.map Held.id).Nodup) freshAckAfterRebind (by decide +kernel)
    fun _ _ hn hk => hn hk.distinct

theorem rebound_subscription_stays_held :
    ∃ s : HeldRegistry, s.held = [⟨"1".toList,slotSubscribe "1"⟩] ∧ s.KeepsHeld ∧
      ∀ a s', s.step flatReader a = some s' → (s'.KeepsHeld ↔ s.NoOverwrite flatReader a) :=
  Run.reached_and (freshAckAfterRebind.take 5) (by decide +kernel) fun _ hs _ =>
    held_kept_iff_no_overwrite flatReader none hs

end Example

end HeldRegistry

end SageGateway
