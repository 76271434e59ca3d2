import SageGateway.Lib.Lease
import SageGateway.Lib.GoString
import SageGateway.Lib.GoTime
import SageGateway.Lib.Run
import Mathlib.Data.Fintype.Basic

namespace SageGateway

def leaderTTL : Int := 30 * GoTime.second

structure LeaderElector where
  isLeader : Bool
  fallback : Bool
  deriving DecidableEq

namespace LeaderElector

def fallBack (_ : LeaderElector) : LeaderElector := ⟨true,true⟩

def renews (l : LeaderElector) : Bool := l.isLeader && !l.fallback

def command (l : LeaderElector) (now : Int) (id : GoString) (key : Option (Lease GoString)) :
    Option (Lease GoString) × Bool :=
  if l.renews then Lease.extend now leaderTTL id key else Lease.setNX now leaderTTL id key

def tryAcquire (l : LeaderElector) (reply : Option Bool) : LeaderElector :=
  if l.renews then
    match reply with
    | none => l.fallBack
    | some ok => if ok then l else { l with isLeader := false }
  else
    match reply with
    | none => l.fallBack
    | some ok => ⟨ok,false⟩

end LeaderElector

inductive ElectorCall where
  | pending
  | replied (reply : Option Bool)
  deriving DecidableEq

structure ElectorNode where
  elector : LeaderElector
  started : Int
  call : Option ElectorCall
  answered : Bool
  deriving DecidableEq

structure Election (ι : Type) where
  now : Int
  key : Option (Lease GoString)
  node : ι → ElectorNode

namespace Election

variable {ι : Type} [DecidableEq ι]

def start (now : Int) (key : Option (Lease GoString)) : Election ι :=
  ⟨now,key,fun _ => ⟨⟨false,false⟩,now,none,true⟩⟩

inductive Act (ι : Type) where
  | tick (d : Nat)
  | begin (i : ι)
  | redis (i : ι) (reply : RemoteReply)
  | finish (i : ι)
  deriving DecidableEq

def setNode (s : Election ι) (i : ι) (n : ElectorNode) : Election ι :=
  { s with node := Function.update s.node i n }

def begin (s : Election ι) (i : ι) : Option (Election ι) :=
  match (s.node i).call with
  | none => some (s.setNode i { s.node i with started := s.now, call := some .pending })
  | some _ => none

def redis (id : ι → GoString) (s : Election ι) (i : ι) (reply : RemoteReply) :
    Option (Election ι) :=
  match (s.node i).call with
  | some .pending =>
      let out := (s.node i).elector.command s.now (id i) s.key
      some ({ s with key := if reply.applied then out.1 else s.key }.setNode i
        { s.node i with call := some (.replied (if reply.isOk then some out.2 else none)) })
  | _ => none

def finish (s : Election ι) (i : ι) : Option (Election ι) :=
  match (s.node i).call with
  | some (.replied reply) =>
      some (s.setNode i { s.node i with
        elector := (s.node i).elector.tryAcquire reply, call := none, answered := reply.isSome })
  | _ => none

def step (id : ι → GoString) (s : Election ι) : Act ι → Option (Election ι)
  | .tick d => some { s with now := s.now + d }
  | .begin i => s.begin i
  | .redis i reply => s.redis id i reply
  | .finish i => s.finish i

def Due (n : ElectorNode) : Prop := n.elector.renews = true ∨ n.call ≠ none

instance (n : ElectorNode) : Decidable (Due n) :=
  inferInstanceAs (Decidable (_ ∨ _))

def Timely (s : Election ι) : Act ι → Prop
  | .tick d => ∀ i, Due (s.node i) → s.now + d < (s.node i).started + leaderTTL
  | _ => True

def OwnKeyClear (id : ι → GoString) (s : Election ι) : Act ι → Prop
  | .redis i reply => reply.isOk = true → (s.node i).elector.renews = false →
      Lease.holderAt s.now s.key ≠ some (id i)
  | _ => True

def Clean (id : ι → GoString) (s : Election ι) (a : Act ι) : Prop :=
  Timely s a ∧ OwnKeyClear id s a

instance [Fintype ι] (s : Election ι) : (a : Act ι) → Decidable (Timely s a)
  | .tick _ => inferInstanceAs (Decidable (∀ _, _))
  | .begin _ | .redis .. | .finish _ => .isTrue trivial

instance (id : ι → GoString) (s : Election ι) : (a : Act ι) → Decidable (OwnKeyClear id s a)
  | .redis _ _ => inferInstanceAs (Decidable (_ → _ → _))
  | .tick _ | .begin _ | .finish _ => .isTrue trivial

instance [Fintype ι] (id : ι → GoString) (s : Election ι) (a : Act ι) : Decidable (Clean id s a) :=
  inferInstanceAs (Decidable (_ ∧ _))

def Answered (s : Election ι) : Prop := ∀ i, (s.node i).call = none ∧ (s.node i).answered = true

instance [Fintype ι] (s : Election ι) : Decidable s.Answered := inferInstanceAs (Decidable (∀ _, _))

end Election

theorem LeaderElector.command_takes (l : LeaderElector) (now : Int) (id : GoString)
    (key : Option (Lease GoString)) :
    Lease.Takes now leaderTTL id key (l.command now id key) := by
  unfold command
  split
  · exact Lease.extend_takes now leaderTTL id key
  · exact Lease.setNX_takes now leaderTTL id key

theorem LeaderElector.tryAcquire_none (l : LeaderElector) : l.tryAcquire none = ⟨true,true⟩ := by
  unfold tryAcquire
  split <;> rfl

theorem LeaderElector.tryAcquire_some (l : LeaderElector) (ok : Bool) :
    l.tryAcquire (some ok) = ⟨ok,false⟩ := by
  obtain ⟨isLeader,fallback⟩ := l
  cases isLeader <;> cases fallback <;> cases ok <;> rfl

variable {l : LeaderElector} {reply : Option Bool}

theorem LeaderElector.renews_tryAcquire
    (h : (l.tryAcquire reply).renews = true) : reply = some true := by
  cases reply with
  | none =>
    rw [tryAcquire_none] at h
    cases h
  | some ok =>
    rw [tryAcquire_some] at h
    exact congrArg some ((Bool.and_eq_true _ _).mp h).1

theorem LeaderElector.isLeader_tryAcquire
    (h : reply ≠ some false) : (l.tryAcquire reply).isLeader = true := by
  cases reply with
  | none => rw [tryAcquire_none]
  | some ok =>
    rw [tryAcquire_some]
    exact Bool.eq_true_of_not_eq_false fun hf => h (congrArg some hf)

theorem LeaderElector.fallback_tryAcquire
    (h : reply.isSome = true) : (l.tryAcquire reply).fallback = false := by
  obtain ⟨ok,rfl⟩ := Option.isSome_iff_exists.mp h
  rw [tryAcquire_some]

namespace Election

variable {ι : Type} [DecidableEq ι] {id : ι → GoString} {s s' : Election ι} {i j : ι}

theorem node_setNode (n : ElectorNode) (j : ι) :
    (s.setNode i n).node j = if j = i then n else s.node j := Function.update_apply s.node i n j

theorem begin_eq (h : s.begin i = some s') : (s.node i).call = none ∧
    s' = s.setNode i { s.node i with started := s.now, call := some .pending } := by
  unfold begin at h
  split at h
  · cases h
    exact ⟨‹_›,rfl⟩
  · cases h

theorem redis_eq {reply : RemoteReply} (h : s.redis id i reply = some s') :
    ∃ out, out = (s.node i).elector.command s.now (id i) s.key ∧
      (s.node i).call = some .pending ∧
      s' = { s with key := if reply.applied then out.1 else s.key }.setNode i
        { s.node i with call := some (.replied (if reply.isOk then some out.2 else none)) } := by
  unfold redis at h
  split at h
  · cases h
    exact ⟨_,rfl,‹_›,rfl⟩
  · cases h

theorem finish_eq (h : s.finish i = some s') : ∃ reply, (s.node i).call = some (.replied reply) ∧
    s' = s.setNode i { s.node i with
      elector := (s.node i).elector.tryAcquire reply, call := none, answered := reply.isSome } := by
  unfold finish at h
  split at h
  · cases h
    exact ⟨_,‹_›,rfl⟩
  · cases h

def Claims (n : ElectorNode) : Prop :=
  n.call = none ∧ n.elector.renews = true ∨ n.call = some (.replied (some true))

theorem Claims.due {n : ElectorNode} (h : Claims n) : Due n := by
  obtain ⟨-,hr⟩ | hcall := h
  · exact .inl hr
  · exact .inr (hcall ▸ nofun)

structure Exclusive (id : ι → GoString) (s : Election ι) : Prop where
  past : ∀ i, (s.node i).started ≤ s.now
  due : ∀ i, Due (s.node i) → s.now < (s.node i).started + leaderTTL
  claims : ∀ i, Claims (s.node i) →
    Lease.HeldUntil (id i) ((s.node i).started + leaderTTL) s.key
  elected : ∀ i, (s.node i).call = none → (s.node i).answered = true →
    (s.node i).elector.fallback = false

omit [DecidableEq ι] in
theorem exclusive_start (now : Int) (key : Option (Lease GoString)) :
    Exclusive id (start now key : Election ι) where
  past _ := Int.le_refl _
  due _ h := by
    rcases h with h | h
    · cases h
    · exact absurd rfl h
  claims _ h := by
    rcases h with ⟨-,h⟩ | h
    · cases h
    · cases h
  elected _ _ _ := rfl

theorem Exclusive.setNode {n : ElectorNode} {key : Option (Lease GoString)} (h : Exclusive id s)
    (hp : n.started ≤ s.now) (hd : Due n → s.now < n.started + leaderTTL)
    (hc : Claims n → Lease.HeldUntil (id i) (n.started + leaderTTL) key)
    (he : n.call = none → n.answered = true → n.elector.fallback = false)
    (ho : ∀ j, j ≠ i → Claims (s.node j) →
      Lease.HeldUntil (id j) ((s.node j).started + leaderTTL) key) :
    Exclusive id ({ s with key := key }.setNode i n) := by
  refine ⟨fun j => ?_,fun j => ?_,fun j => ?_,fun j => ?_⟩ <;> rw [node_setNode] <;> split
  · exact hp
  · exact h.past j
  · exact hd
  · exact h.due j
  · rename_i hj
    exact hj ▸ hc
  · exact ho j ‹_›
  · exact he
  · exact h.elected j

theorem Exclusive.begin (h : Exclusive id s) (hs : s.begin i = some s') : Exclusive id s' := by
  obtain ⟨hca,rfl⟩ := begin_eq hs
  refine h.setNode (Int.le_refl _) (fun _ => ?_) (fun hc => ?_) nofun fun j _ => h.claims j
  · exact Int.lt_add_of_pos_right _ (by decide)
  · rcases hc with ⟨hc,-⟩ | hc <;> cases hc

theorem Exclusive.redis {reply : RemoteReply} (hid : Function.Injective id) (h : Exclusive id s)
    (hs : s.redis id i reply = some s') : Exclusive id s' := by
  obtain ⟨out,ho,hca,rfl⟩ := redis_eq hs
  have ht := (s.node i).elector.command_takes s.now (id i) s.key
  rw [← ho] at ht
  have hd : Due (s.node i) := .inr (hca ▸ nofun)
  refine h.setNode (h.past i) (fun _ => h.due i hd) (fun hc => ?_) nofun fun j hj hcl => ?_
  · rcases hc with ⟨hc,-⟩ | hc
    · cases hc
    · cases hok : reply.isOk with
      | false =>
        simp only [hok] at hc
        cases hc
      | true =>
        simp [hok,Option.some.injEq,ElectorCall.replied.injEq] at hc
        rw [RemoteReply.applied_of_isOk hok]
        exact (ht.heldUntil hc).of_le (Int.add_le_add_right (h.past i) leaderTTL)
  · split
    · rw [ht.keeps (fun heq => hj (hid heq)) (h.claims j hcl) (h.due j hcl.due)]
      exact h.claims j hcl
    · exact h.claims j hcl

theorem Exclusive.finish (h : Exclusive id s) (hs : s.finish i = some s') : Exclusive id s' := by
  obtain ⟨reply,hca,rfl⟩ := finish_eq hs
  have hd : Due (s.node i) := .inr (hca ▸ nofun)
  refine h.setNode (h.past i) (fun _ => h.due i hd) (fun hc => ?_)
    (fun _ => LeaderElector.fallback_tryAcquire) fun j _ => h.claims j
  rcases hc with ⟨-,hr⟩ | hc
  · obtain rfl := LeaderElector.renews_tryAcquire hr
    exact h.claims i (.inr hca)
  · cases hc

theorem exclusive_step {a : Act ι} (hid : Function.Injective id) (h : Exclusive id s)
    (hok : Timely s a) (hs : s.step id a = some s') : Exclusive id s' := by
  cases a with
  | tick d =>
    cases hs
    exact { h with
      past := fun i => (h.past i).trans (Int.le_add_of_nonneg_right (Int.natCast_nonneg d))
      due := hok }
  | begin i => exact h.begin hs
  | redis i reply => exact h.redis hid hs
  | finish i => exact h.finish hs

omit [DecidableEq ι] in
theorem Exclusive.leader_holds (h : Exclusive id s) (ha : Answered s)
    (hl : (s.node i).elector.isLeader = true) : Lease.holderAt s.now s.key = some (id i) := by
  have hr : (s.node i).elector.renews = true := by
    rw [LeaderElector.renews,hl,h.elected i (ha i).1 (ha i).2]
    rfl
  have hc : Claims (s.node i) := .inl ⟨(ha i).1,hr⟩
  exact (h.claims i hc).holderAt (h.due i hc.due)

theorem at_most_one_leader (hid : Function.Injective id) {now : Int}
    {key : Option (Lease GoString)} (h : Run.Reaches (step id) Timely (start now key) s)
    (ha : Answered s) (hi : (s.node i).elector.isLeader = true)
    (hj : (s.node j).elector.isLeader = true) : i = j := by
  have hex : Exclusive id s :=
    h.invariant (Exclusive id) (exclusive_start now key) fun _ _ _ hs hok hst =>
      exclusive_step hid hs hok hst
  have hsa := (hex.leader_holds ha hi).symm.trans (hex.leader_holds ha hj)
  exact hid (Option.some.inj hsa)

def Aware (n : ElectorNode) : Prop :=
  match n.call with
  | none => n.elector.isLeader = true
  | some .pending => n.elector.isLeader = true
  | some (.replied reply) => reply ≠ some false

def HolderAware (id : ι → GoString) (s : Election ι) : Prop :=
  ∀ i, Lease.holderAt s.now s.key = some (id i) → Aware (s.node i)

theorem HolderAware.begin (h : HolderAware id s) (hs : s.begin i = some s') :
    HolderAware id s' := by
  obtain ⟨hc,rfl⟩ := begin_eq hs
  intro j hj
  have ha := h j hj
  rw [node_setNode]
  split
  · rename_i heq
    subst heq
    rwa [Aware,hc] at ha
  · exact ha

theorem HolderAware.redis {reply : RemoteReply} (hid : Function.Injective id)
    (h : HolderAware id s) (hok : OwnKeyClear id s (.redis i reply))
    (hs : s.redis id i reply = some s') : HolderAware id s' := by
  obtain ⟨out,ho,hc,rfl⟩ := redis_eq hs
  have ht := (s.node i).elector.command_takes s.now (id i) s.key
  rw [← ho] at ht
  intro j hj
  rw [node_setNode]
  split
  · rename_i heq
    subst heq
    split
    · rename_i hrp
      -- a refused command leaves the key as it was, and it was not this instance's
      intro hf
      have hr := Option.some.inj hf
      have hh : Lease.holderAt s.now s.key = some (id j) := by
        simpa [setNode,RemoteReply.applied_of_isOk hrp,ht.unchanged hr] using hj
      cases hre : (s.node j).elector.renews with
      | true =>
        rw [ho,LeaderElector.command,if_pos hre] at hr
        exact Lease.extend_of_refused hr hh
      | false => exact hok hrp hre hh
    · exact nofun
  · rename_i heq
    refine h j ?_
    split at hj
    · exact ht.holder_other (fun hsa => heq (hid hsa)) hj
    · exact hj

theorem HolderAware.finish (h : HolderAware id s) (hs : s.finish i = some s') :
    HolderAware id s' := by
  obtain ⟨reply,hc,rfl⟩ := finish_eq hs
  intro j hj
  have ha := h j hj
  rw [node_setNode]
  split
  · rename_i heq
    subst heq
    rw [Aware,hc] at ha
    exact LeaderElector.isLeader_tryAcquire ha
  · exact ha

theorem holderAware_step {a : Act ι} (hid : Function.Injective id) (h : HolderAware id s)
    (hok : OwnKeyClear id s a) (hs : s.step id a = some s') : HolderAware id s' := by
  cases a with
  | tick d =>
    cases hs
    exact fun i hi => h i
      (Lease.holderAt_of_le (Int.le_add_of_nonneg_right (Int.natCast_nonneg d)) hi)
  | begin i => exact h.begin hs
  | redis i reply => exact h.redis hid hok hs
  | finish i => exact h.finish hs

theorem leader_key_and_flag_agree (hid : Function.Injective id) {now : Int}
    {key : Option (Lease GoString)} (hkey : ∀ i, Lease.holderAt now key ≠ some (id i))
    (h : Run.Reaches (step id) (Clean id) (start now key) s) (ha : Answered s) :
    (∀ i, Lease.holderAt s.now s.key = some (id i) → (s.node i).elector.isLeader = true) ∧
    ∀ i j, (s.node i).elector.isLeader = true → (s.node j).elector.isLeader = true → i = j := by
  have haw : HolderAware id s :=
    h.invariant (HolderAware id) (fun i hi => absurd hi (hkey i)) fun _ _ _ hs hok hst =>
      holderAware_step hid hs hok.2 hst
  refine ⟨fun i hi => ?_,fun i j => at_most_one_leader hid (h.mono fun _ _ => And.left) ha⟩
  have hi := haw i hi
  rwa [Aware,(ha i).1] at hi

def pods : Bool → GoString
  | false => "pod-a".toList
  | true => "pod-b".toList

theorem pods_injective : Function.Injective pods := by
  intro i j h
  cases i <;> cases j <;> first | rfl | cases h

theorem failed_renewal_hides_the_key_from_its_holder :
    ∃ s : Election Bool, Run.Reaches (step pods) Timely (start 0 none) s ∧ Answered s ∧
      Lease.holderAt s.now s.key = some (pods false) ∧
      (s.node false).elector.isLeader = false :=
  Run.reaches [.begin false,.redis false .ok,.finish false,.tick 10000000000,
    .begin false,.redis false (.failed false),.finish false,.tick 10000000000,
    .begin false,.redis false .ok,.finish false] (by decide +kernel)

theorem elected_pod_knows_it_leads :
    ∃ s : Election Bool, Run.Reaches (step pods) (Clean pods) (start 0 none) s ∧ Answered s ∧
      Lease.holderAt s.now s.key = some (pods false) ∧
      (s.node false).elector.isLeader = true := by
  obtain ⟨s,hr,ha,hh⟩ : ∃ s, Run.Reaches (step pods) (Clean pods) (start 0 none) s ∧
      Answered s ∧ Lease.holderAt s.now s.key = some (pods false) :=
    Run.reaches [.begin false,.begin true,.redis false .ok,.redis true .ok,.finish false,
      .finish true,.tick 10000000000,.begin true,.redis true (.failed false),.finish true,
      .begin false,.redis false .ok,.finish false,.tick 10000000000,.begin true,.redis true .ok,
      .finish true] (by decide +kernel)
  have hag := leader_key_and_flag_agree pods_injective (fun _ h => by cases h) hr ha
  exact ⟨s,hr,ha,hh,hag.1 false hh⟩

end Election

end SageGateway
