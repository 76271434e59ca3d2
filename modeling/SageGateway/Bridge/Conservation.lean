import SageGateway.Bridge
import SageGateway.Subscription.FlatReader
import SageGateway.Subscription.Owed

namespace SageGateway

open Option GoMap

structure OwingBridge where
  bridge : Bridge
  owed : List Frame

namespace OwingBridge

open Owed

def start (dupLimits : Option (Int → Int × Int)) : OwingBridge := ⟨.start (.new dupLimits),[]⟩

def owedAfter (R : FrameReader) (b : Bridge) (owed : List Frame) : Bridge.Act → List Frame
  | .client now iter data answered _ =>
      if answered = false ∧ b.sessionActive then acceptFrame R now iter b.reg owed data else owed
  | .endpoint conn now data verdict =>
      if conn ≠ b.conn then owed
      else match verdict with
        | .pass => answerFrame R now b.reg owed data
        | .reissue =>
            if (b.reg.reissueAnswer R data).2 then owed else answerFrame R now b.reg owed data
        | _ => owed
  | .lost conn now _ _ (.replaced subs queues requests) =>
      if conn = b.conn then owed.diff (b.reg.replayAll R now subs queues requests).2.abandoned
      else owed
  | _ => owed

def step (R : FrameReader) (rebindLimit : Int) (s : OwingBridge) (a : Bridge.Act) :
    Option OwingBridge :=
  (s.bridge.step R rebindLimit a).map fun b => ⟨b,owedAfter R s.bridge s.owed a⟩

def unsent (loops : GoMap Nat ReplayLoop) (f : Frame) : Nat :=
  loops.total fun _ l => l.frames.count f

def Conserved (s : OwingBridge) : Prop :=
  ∀ f, s.owed.count f ≤ s.bridge.reg.ledger.count f + unsent s.bridge.loops f

def nextFrame (b : Bridge) (conn : Nat) : List Frame :=
  ((b.loops.get conn).elim [] ReplayLoop.frames).take 1

def KeepsOwed (R : FrameReader) (s : OwingBridge) : Bridge.Act → Prop
  | .endpoint .. => Separate s.bridge.reg
  | .process conn .. =>
      ∀ f ∈ nextFrame s.bridge conn,
        if s.bridge.sessionActive then
          Undisturbing R s.bridge.reg f ∧ (Retracks R s.bridge.reg f ∨ f ∉ s.owed)
        else f ∉ s.owed
  | .write conn false => ∀ f ∈ (s.bridge.loops.get conn).elim [] ReplayLoop.frames, f ∉ s.owed
  | _ => True

instance (R : FrameReader) (s : OwingBridge) (a : Bridge.Act) : Decidable (KeepsOwed R s a) := by
  unfold KeepsOwed
  split <;> infer_instance

structure OwedInv (R : FrameReader) (s : OwingBridge) : Prop where
  covered : Covered R s.bridge.reg.ledger s.owed (unsent s.bridge.loops)
  numbered : ∀ c l, s.bridge.loops.get c = some l → c ≤ s.bridge.conn

variable {R : FrameReader} {rebindLimit : Int} {s s' : OwingBridge}

variable {b : Bridge} {loops : GoMap Nat ReplayLoop} {c conn : Nat} {l : ReplayLoop}

theorem unsent_put
    (hg : loops.get c = some l) (l' : ReplayLoop) (f : Frame) :
    unsent (loops.put c l') f + l.frames.count f = l'.frames.count f + unsent loops f := by
  have h := total_put_add (fun (_ : Nat) (l : ReplayLoop) => l.frames.count f) loops c l'
  rwa [hg] at h

theorem unsent_put_new (hg : loops.get c = none)
    (l' : ReplayLoop) (f : Frame) :
    unsent (loops.put c l') f = unsent loops f + l'.frames.count f := by
  have h := total_put_add (fun (_ : Nat) (l : ReplayLoop) => l.frames.count f) loops c l'
  rw [hg] at h
  exact h.trans (Nat.add_comm _ _)

theorem unsent_del
    (hg : loops.get c = some l) (f : Frame) :
    unsent (loops.del c) f + l.frames.count f = unsent loops f := by
  have h := total_del_add (fun (_ : Nat) (l : ReplayLoop) => l.frames.count f) loops c
  rwa [hg] at h

theorem OwedInv.routeClient (hi : OwedInv R s) (now : Int) (iter : SubscriptionOrder)
    (data : Frame) (answered signed : Bool) :
    OwedInv R ⟨s.bridge.routeClient R now iter data answered signed,
      owedAfter R s.bridge s.owed (.client now iter data answered signed)⟩ := by
  simp [Bridge.routeClient,Bridge.processClientMessage,owedAfter]
  cases answered with
  | true => exact hi
  | false =>
    cases ha : s.bridge.sessionActive with
    | false => exact { hi with }
    | true =>
      cases signed with
      | true | false => exact ⟨hi.covered.clientFrame data,hi.numbered⟩

theorem reissueAnswer_false {r : Registry} {data : Frame}
    (h : (r.reissueAnswer R data).2 = false) : r.reissueAnswer R data = (r,false) := by
  simp only [Registry.reissueAnswer] at h ⊢
  split_ifs at h ⊢
  · rfl
  · split at h
    · rfl
    · cases h

theorem OwedInv.routeEndpoint (hi : OwedInv R s) (hs : Separate s.bridge.reg) (conn : Nat)
    (now : Int) (data : Frame) (verdict : EndpointVerdict) :
    OwedInv R ⟨s.bridge.routeEndpoint R now conn data verdict,
      owedAfter R s.bridge s.owed (.endpoint conn now data verdict)⟩ := by
  simp only [Bridge.routeEndpoint,owedAfter]
  by_cases hc : conn ≠ s.bridge.conn
  · rwa [if_pos hc,if_pos hc]
  · rw [if_neg hc,if_neg hc]
    cases verdict with
    | failed | control => exact hi
    | pass => exact ⟨hi.covered.endpointFrame hs data,hi.numbered⟩
    | reissue =>
      cases hre : (s.bridge.reg.reissueAnswer R data).2 with
      | true =>
        obtain ⟨r,hr⟩ : ∃ r, s.bridge.reg.reissueAnswer R data = (r,true) := ⟨_,Prod.ext rfl hre⟩
        have hco := hi.covered.reissueAnswer data
        simp [hr] at hco ⊢
        exact ⟨hco,hi.numbered⟩
      | false =>
        simpa [reissueAnswer_false hre] using ⟨hi.covered.endpointFrame hs data,hi.numbered⟩

theorem Covered.fewer {l : Ledger} {owed owed' : List Frame} {extra : Frame → Nat}
    (h : Covered R l owed extra) (hle : ∀ f, owed'.count f ≤ owed.count f) :
    Covered R l owed' extra := ⟨h.filed,fun f => (hle f).trans (h.counted f)⟩

theorem owedAfter_lost_le (b : Bridge) (owed : List Frame) (conn : Nat) (now swapped : Int)
    (planned : Bool) (outcome : LostOutcome) (f : Frame) :
    (owedAfter R b owed (.lost conn now swapped planned outcome)).count f ≤ owed.count f := by
  cases outcome with
  | refused | failed => exact le_rfl
  | replaced subs queues requests =>
    simp [owedAfter]
    split_ifs
    · rw [count_diff]
      exact Nat.sub_le _ _
    · exact le_rfl

theorem OwedInv.rebind (hi : OwedInv R s) {now swapped : Int} {planned : Bool}
    {outcome : LostOutcome}
    (h : s.bridge.rebind R rebindLimit conn now swapped planned outcome = some b) :
    OwedInv R ⟨b,owedAfter R s.bridge s.owed (.lost conn now swapped planned outcome)⟩ := by
  have hle := Covered.fewer hi.covered
    (@owedAfter_lost_le R s.bridge s.owed conn now swapped planned outcome)
  simp only [Bridge.rebind] at h
  split_ifs at h with hmu hco hli
  · cases h
    exact ⟨hle,hi.numbered⟩
  · cases h
    exact ⟨hle,hi.numbered⟩
  · cases outcome with
    | refused | failed =>
      cases h
      exact ⟨hle,hi.numbered⟩
    | replaced subs queues requests =>
      obtain ⟨⟨-,hq,hr⟩,hb⟩ := ite_none_right_eq_some.mp h
      cases hb
      have hcv := @Covered.replayAll R now _ _ _ hi.covered subs queues requests hq hr
      have hf : s.bridge.loops.get (s.bridge.conn + 1) = none := by
        refine eq_none_iff_forall_ne_some.mpr fun l hl => ?_
        have := hi.numbered _ _ hl
        omega
      refine ⟨?_,fun c l hl => ?_⟩
      · simp [owedAfter,Decidable.not_not.mp hco]
        exact ⟨hcv.filed,fun f => (unsent_put_new hf _ f) ▸ hcv.counted f⟩
      · simp [Bridge.replaced,get_put] at hl ⊢
        split_ifs at hl with hc
        · omega
        · exact (hi.numbered c l hl).trans (Nat.le_succ _)

theorem unsent_same
    (hg : loops.get c = some l) (l' : ReplayLoop) (hl : l'.frames = l.frames) :
    unsent (loops.put c l') = unsent loops := by
  funext f
  have hp := unsent_put hg l' f
  rw [hl] at hp
  omega

theorem OwedInv.setLoop (hi : OwedInv R s) {l' : ReplayLoop}
    (hg : s.bridge.loops.get conn = some l)
    (hl : b.loops = s.bridge.loops.put conn l') (hco : b.conn = s.bridge.conn)
    (hcv : Covered R b.reg.ledger s.owed (unsent (s.bridge.loops.put conn l'))) :
    OwedInv R ⟨b,s.owed⟩ := by
  refine ⟨hl ▸ hcv,fun c k hk => ?_⟩
  simp [hl,get_put] at hk
  rw [hco]
  split_ifs at hk with hc
  · exact hc ▸ hi.numbered conn l hg
  · exact hi.numbered c k hk

theorem OwedInv.endLoop (hi : OwedInv R s)
    (hge : s.bridge.loops.get conn = some l) (hg : ∀ f ∈ l.frames, f ∉ s.owed) :
    OwedInv R ⟨s.bridge.endLoop conn,s.owed⟩ := by
  refine ⟨hi.covered.drop (unsent_del hge) hg,fun c k hk => ?_⟩
  simp only [Bridge.endLoop,get_del] at hk ⊢
  split_ifs at hk
  exact hi.numbered c k hk

theorem OwedInv.lockLoop (hi : OwedInv R s)
    (h : s.bridge.lockLoop conn = some b) : OwedInv R ⟨b,s.owed⟩ := by
  obtain ⟨l,hg,rfl⟩ := map_eq_some_iff.mp h
  refine hi.setLoop hg rfl rfl ?_
  rw [unsent_same hg { l with locked := true } rfl]
  exact hi.covered

theorem unsent_pop {f : Frame}
    {frames : List Frame} (hg : loops.get conn = some l) (hl : l.frames = f :: frames)
    (writing : Bool) (g : Frame) :
    unsent (loops.put conn ⟨true,frames,writing⟩) g + [f].count g = unsent loops g := by
  have hp := unsent_put hg ⟨true,frames,writing⟩ g
  rw [hl,List.count_cons] at hp
  rw [List.count_singleton]
  simp only at hp
  omega

theorem OwedInv.processLoop (hi : OwedInv R s) {now : Int} {iter : SubscriptionOrder}
    {signed : Bool} (hok : KeepsOwed R s (.process conn now iter signed))
    (h : s.bridge.processLoop R now iter conn signed = some b) : OwedInv R ⟨b,s.owed⟩ := by
  simp [Bridge.processLoop] at h
  split at h
  · rename_i f frames hge
    have hn := hok f (by simp [nextFrame,hge])
    simp [Bridge.processClientMessage] at h
    cases ha : s.bridge.sessionActive with
    | false =>
      simp [ha] at h hn
      subst h
      exact hi.setLoop hge rfl rfl (hi.covered.drop (unsent_pop hge rfl false)
        fun g hg => List.mem_singleton.mp hg ▸ hn)
    | true =>
      simp [ha] at h hn
      cases signed with
      | true =>
        cases h
        exact hi.setLoop hge rfl rfl (hi.covered.retrack (unsent_pop hge rfl true) hn.1 hn.2)
      | false =>
        cases h
        exact hi.setLoop hge rfl rfl (hi.covered.retrack (unsent_pop hge rfl false) hn.1 hn.2)
  · cases h

theorem OwedInv.writeLoop (hi : OwedInv R s) {ok : Bool}
    (hok : KeepsOwed R s (.write conn ok)) (h : s.bridge.writeLoop conn ok = some b) :
    OwedInv R ⟨b,s.owed⟩ := by
  simp [Bridge.writeLoop] at h
  split at h
  · rename_i frames hg
    cases ok with
    | true =>
      cases h
      refine hi.setLoop hg rfl rfl ?_
      rw [unsent_same hg ⟨true,frames,false⟩ rfl]
      exact hi.covered
    | false =>
      cases h
      refine hi.endLoop hg fun f hf => hok f ?_
      rwa [hg]
  · cases h

theorem OwedInv.finishLoop (hi : OwedInv R s)
    (h : s.bridge.finishLoop conn = some b) : OwedInv R ⟨b,s.owed⟩ := by
  simp [Bridge.finishLoop] at h
  split at h
  · rename_i hg
    cases h
    exact hi.endLoop hg fun f hf => nomatch hf
  · cases h

theorem OwedInv.step (hi : OwedInv R s) {a : Bridge.Act} (hok : KeepsOwed R s a)
    (h : s.step R rebindLimit a = some s') : OwedInv R s' := by
  obtain ⟨b,hb,rfl⟩ := map_eq_some_iff.mp h
  simp only [Bridge.step] at hb
  split_ifs at hb
  cases a with
  | client now iter data answered signed =>
    cases hb
    exact hi.routeClient now iter data answered signed
  | endpoint conn now data verdict =>
    cases hb
    exact hi.routeEndpoint hok conn now data verdict
  | lost conn now swapped planned outcome => exact hi.rebind hb
  | expire | shutdown =>
    cases hb
    exact { hi with }
  | lock conn => exact hi.lockLoop hb
  | process conn now iter signed => exact hi.processLoop hok hb
  | write conn ok => exact hi.writeLoop hok hb
  | finish conn => exact hi.finishLoop hb

theorem owed_conserved_of_kept (R : FrameReader) (rebindLimit : Int)
    (dupLimits : Option (Int → Int × Int)) {s : OwingBridge}
    (h : Run.Reaches (step R rebindLimit) (KeepsOwed R) (start dupLimits) s) : s.Conserved := by
  have hin : OwedInv R s := by
    refine h.invariant (OwedInv R) ?_ fun _ _ _ hi hok hs => hi.step hok hs
    refine ⟨⟨?_,?_⟩,?_⟩ <;>
      simp [start,Bridge.start,Registry.new,Registry.ledger,Filed]
  exact hin.covered.counted

section Example

def slotRequest (id : String) : Frame :=
  "\x7b\"id\":".toList ++ id.toList ++ ",\"method\":\"getSlot\"\x7d".toList

def twoRequestsLost : List Bridge.Act :=
  [.client 1 GoMap.toList (slotRequest "1") false true,
    .client 2 GoMap.toList (slotRequest "2") false true,
    .lost 0 3 4 false (.replaced [] []
      [("1".toList,⟨slotRequest "1",1⟩),("2".toList,⟨slotRequest "2",2⟩)]),
    .lock 1,.process 1 5 GoMap.toList true]

theorem failed_replay_write_loses_request :
    ∃ s, Run.Reaches (step flatReader Bridge.defaultRebindLimit) (fun _ _ => True) (start none) s ∧
      s.bridge.closed = false ∧ ¬s.Conserved := by
  obtain ⟨s,hs,ho,how,ht,hu⟩ : ∃ s, Run.Reaches
      (step flatReader Bridge.defaultRebindLimit) (fun _ _ => True) (start none) s ∧
      s.bridge.closed = false ∧ s.owed.count (slotRequest "2") = 1 ∧
      s.bridge.reg.ledger.count (slotRequest "2") = 0 ∧
      unsent s.bridge.loops (slotRequest "2") = 0 :=
    Run.reaches (twoRequestsLost ++ [.write 1 false]) (by decide +kernel)
  refine ⟨s,hs,ho,fun hc => ?_⟩
  have hle := hc (slotRequest "2")
  omega

theorem replay_written_keeps_requests :
    ∃ s : OwingBridge, s.owed = [slotRequest "1",slotRequest "2"] ∧ s.Conserved :=
  Run.reached_and (twoRequestsLost ++ [.write 1 true]) (by decide +kernel) fun _ hs _ =>
    owed_conserved_of_kept flatReader Bridge.defaultRebindLimit none hs

end Example

end OwingBridge

end SageGateway
