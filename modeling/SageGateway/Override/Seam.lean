import SageGateway.Override.Store
import SageGateway.Lib.Run

namespace SageGateway

open Option GoMap

structure OverrideSeam (K Q V L : Type) where
  keySpace : GoString
  key : K → GoString
  encode : Q → GoString
  decode : K → GoString → Option V
  admits : K → Q → Bool
  set : L → Int → K → Q → L
  remove : L → K → L
  applyPersisted : L → Int → List (GoString × GoString) → L
  held : L → K → Option V
  Sound : L → Prop
  key_listed : ∀ k, keySpace.isPrefixOf (key k) = true
  key_injective : Function.Injective key
  decode_encode : ∀ k q, admits k q = true → ∃ v, decode k (encode q) = some v
  sound_set : ∀ l now k q, Sound l → admits k q = true → Sound (set l now k q)
  held_set_self : ∀ l now k q, admits k q = true →
    held (set l now k q) k = decode k (encode q)
  held_set_ne : ∀ l now k q j, j ≠ k → held (set l now k q) j = held l j
  sound_remove : ∀ l k, Sound l → Sound (remove l k)
  held_remove_self : ∀ l k, held (remove l k) k = none
  held_remove_ne : ∀ l k j, j ≠ k → held (remove l k) j = held l j
  sound_applyPersisted : ∀ l now entries order, Sound l → GoMap.Iterates entries order →
    (∀ name raw, entries.get name = some raw → ∃ k, name = key k ∧ (decode k raw).isSome) →
    Sound (applyPersisted l now order)
  held_applyPersisted : ∀ l now entries order, Sound l → GoMap.Iterates entries order →
    (∀ name raw, entries.get name = some raw → ∃ k, name = key k ∧ (decode k raw).isSome) →
    ∀ k, held (applyPersisted l now order) k = (entries.get (key k)).bind (decode k)

inductive SeamCall (K Q : Type) where
  | setting (k : K) (q : Q)
  | applyingSet (k : K) (q : Q)
  | removing (k : K)
  | applyingRemove (k : K)

namespace SeamCall

variable {K Q : Type}

def target : SeamCall K Q → K
  | .setting k _ => k
  | .applyingSet k _ => k
  | .removing k => k
  | .applyingRemove k => k

def unsaved : SeamCall K Q → Bool
  | .setting _ _ => true
  | .removing _ => true
  | _ => false

def deletes : SeamCall K Q → Bool
  | .removing _ => true
  | _ => false

end SeamCall

structure SeamReplica (K Q L : Type) where
  locals : L
  overrides : OverrideStore
  watch : OverrideWatch
  listing : Option (GoMap GoString GoString)
  calls : GoMap Nat (SeamCall K Q)
  polled : Bool

inductive SeamAct (K Q : Type) where
  | set (n : Nat) (k : K) (q : Q)
  | remove (n : Nat) (k : K)
  | advance (n : Nat) (ok : Bool) (now : Int)
  | poll
  | apply (now : Int) (order : List (GoString × GoString))

namespace SeamReplica

variable {K Q V L : Type}

def start (locals : L) (overrides : OverrideStore) : SeamReplica K Q L :=
  ⟨locals,overrides,.start,none,∅,false⟩

def call (r : SeamReplica K Q L) (n : Nat) (c : SeamCall K Q) : Option (SeamReplica K Q L) :=
  if r.calls.has n then none else some { r with calls := r.calls.put n c, polled := false }

def setCall (r : SeamReplica K Q L) (n : Nat) (c : SeamCall K Q) : SeamReplica K Q L :=
  { r with calls := r.calls.put n c }

def endCall (r : SeamReplica K Q L) (n : Nat) : SeamReplica K Q L :=
  { r with calls := r.calls.del n }

def advance (M : OverrideSeam K Q V L) (r : SeamReplica K Q L) (n : Nat) (ok : Bool) (now : Int) :
    SeamCall K Q → SeamReplica K Q L
  | .setting k q =>
      if ok then
        { r with overrides := r.overrides.put (M.key k) (M.encode q) }.setCall n (.applyingSet k q)
      else r.endCall n
  | .applyingSet k q => { r with locals := M.set r.locals now k q }.endCall n
  | .removing k =>
      { r with overrides := if ok then r.overrides.del (M.key k) else r.overrides }.setCall n
        (.applyingRemove k)
  | .applyingRemove k => { r with locals := M.remove r.locals k }.endCall n

def poll (M : OverrideSeam K Q V L) (r : SeamReplica K Q L) : Option (SeamReplica K Q L) :=
  match r.listing with
  | none =>
      let cur := r.overrides.list M.keySpace
      let r := { r with polled := r.calls.len = 0 }
      some (if r.watch.applies cur then { r with watch := .listed cur, listing := some cur } else r)
  | some _ => none

def apply (M : OverrideSeam K Q V L) (r : SeamReplica K Q L) (now : Int)
    (order : List (GoString × GoString)) : Option (SeamReplica K Q L) :=
  r.listing.bind fun cur =>
    if cur.Iterates order then
      some { r with locals := M.applyPersisted r.locals now order, listing := none }
    else none

def step (M : OverrideSeam K Q V L) (r : SeamReplica K Q L) :
    SeamAct K Q → Option (SeamReplica K Q L)
  | .set n k q => if M.admits k q then r.call n (.setting k q) else some r
  | .remove n k => r.call n (.removing k)
  | .advance n ok now => (r.calls.get n).map (r.advance M n ok now)
  | .poll => r.poll M
  | .apply now order => r.apply M now order

def desired (M : OverrideSeam K Q V L) (r : SeamReplica K Q L) (k : K) : Option V :=
  (r.overrides.get (M.key k)).bind (M.decode k)

def free [DecidableEq K] (r : SeamReplica K Q L) (k : K) : Bool :=
  r.listing.isNone && r.calls.toList.all fun e => e.2.target ≠ k

def Apart [DecidableEq K] (M : OverrideSeam K Q V L) (r : SeamReplica K Q L) :
    SeamAct K Q → Prop
  | .set _ k _ => r.free k = true
  | .remove _ k => r.free k = true
  | .advance n ok _ => (r.calls.get n).any SeamCall.deletes = true → ok = true
  | .poll => r.watch.applies (r.overrides.list M.keySpace) = true → r.calls.len = 0
  | .apply _ _ => True

instance [DecidableEq K] (M : OverrideSeam K Q V L) (r : SeamReplica K Q L) :
    ∀ a, Decidable (Apart M r a)
  | .set _ _ _ => inferInstanceAs (Decidable (_ = _))
  | .remove _ _ => inferInstanceAs (Decidable (_ = _))
  | .advance _ _ _ => inferInstanceAs (Decidable (_ → _))
  | .poll => inferInstanceAs (Decidable (_ → _))
  | .apply .. => .isTrue trivial

def WellFormed (M : OverrideSeam K Q V L) (store : OverrideStore) : Prop :=
  ∀ name raw, store.get name = some raw → M.keySpace.isPrefixOf name = true →
    ∃ k, name = M.key k ∧ (M.decode k raw).isSome

def CallInv (M : OverrideSeam K Q V L) (store : OverrideStore) : SeamCall K Q → Prop
  | .setting k q => M.admits k q = true
  | .applyingSet k q => M.admits k q = true ∧ store.get (M.key k) = some (M.encode q)
  | .removing _ => True
  | .applyingRemove k => store.get (M.key k) = none

structure Synced (M : OverrideSeam K Q V L) (r : SeamReplica K Q L) : Prop where
  sound : M.Sound r.locals
  wellFormed : WellFormed M r.overrides
  single : ∀ m n c d, r.calls.get m = some c → r.calls.get n = some d → c.target = d.target → m = n
  calls : ∀ n c, r.calls.get n = some c → CallInv M r.overrides c
  listed : ∀ cur, r.listing = some cur →
    cur = r.overrides.list M.keySpace ∧ ∀ n, r.calls.get n = none
  synced : r.watch.first = false → r.listing = none → ∀ k,
    (∀ n c, r.calls.get n = some c → c.target = k → c.unsaved = true) →
    M.held r.locals k = r.desired M k
  polled : r.polled = true → r.watch.first = false

section

variable {M : OverrideSeam K Q V L} {r r' : SeamReplica K Q L} {n : Nat} {c : SeamCall K Q}

variable {locals : L} {store : OverrideStore}

theorem synced_start {overrides : OverrideStore} (hs : M.Sound locals)
    (hst : WellFormed M overrides) : Synced M (start locals overrides) where
  sound := hs
  wellFormed := hst
  single m n c d h := by cases h
  calls n c h := by cases h
  listed cur h := by cases h
  synced h := by cases h
  polled h := by cases h

theorem WellFormed.put (h : WellFormed M store) {k : K} {q : Q}
    (ha : M.admits k q = true) : WellFormed M (store.put (M.key k) (M.encode q)) := by
  intro name raw hget hl
  rcases get_put_eq_some.mp hget with ⟨rfl,rfl⟩ | ⟨-,hold⟩
  · obtain ⟨v,hv⟩ := M.decode_encode k q ha
    exact ⟨k,rfl,isSome_iff_exists.mpr ⟨v,hv⟩⟩
  · exact h name raw hold hl

theorem WellFormed.del (h : WellFormed M store) (name : GoString) :
    WellFormed M (store.del name) :=
  fun other raw hget hl => h other raw (get_del_eq_some.mp hget).2 hl

theorem CallInv.other {store' : OverrideStore} (h : CallInv M store c)
    (hget : store'.get (M.key c.target) = store.get (M.key c.target)) : CallInv M store' c := by
  cases c with
  | setting k q => exact h
  | applyingSet k q => exact ⟨h.1,hget.trans h.2⟩
  | removing k => exact h
  | applyingRemove k => exact hget.trans h

theorem target_ne_of_free [DecidableEq K] {k : K} (h : r.free k = true)
    (hget : r.calls.get n = some c) : c.target ≠ k := by
  obtain ⟨-,ha⟩ := Bool.and_eq_true_iff.mp h
  have hm := (iterates_toList r.calls).mem_iff n c |>.mpr hget
  exact of_decide_eq_true (List.all_eq_true.mp ha (n,c) hm)

theorem Synced.call [DecidableEq K] (h : Synced M r) (hc : r.call n c = some r')
    (hf : r.free c.target = true) (hin : CallInv M r.overrides c) : Synced M r' := by
  obtain ⟨hfr,rfl⟩ := Run.guard_neg hc
  have hn : r.listing = none := isNone_iff_eq_none.mp (Bool.and_eq_true_iff.mp hf).1
  refine ⟨h.sound,h.wellFormed,?_,?_,?_,?_,fun hp => by cases hp⟩
  · intro m j d e hm hj heq
    rcases get_put_eq_some.mp hm with ⟨rfl,rfl⟩ | ⟨hmn,hm'⟩ <;>
      rcases get_put_eq_some.mp hj with ⟨rfl,rfl⟩ | ⟨hjn,hj'⟩
    · rfl
    · exact absurd heq.symm (target_ne_of_free hf hj')
    · exact absurd heq (target_ne_of_free hf hm')
    · exact h.single m j d e hm' hj' heq
  · intro m d hm
    rcases get_put_eq_some.mp hm with ⟨rfl,rfl⟩ | ⟨-,hm'⟩
    · exact hin
    · exact h.calls m d hm'
  · intro cur hcu
    cases hn.symm.trans hcu
  · intro hfi _ k hk
    apply h.synced hfi hn k
    intro m d hm ht
    have hmn : m ≠ n := fun heq => hfr ((has_iff _ _).mpr ⟨d,heq ▸ hm⟩)
    exact hk m d ((get_put_ne _ _ hmn).trans hm) ht

section

variable (h : Synced M r) (hget : r.calls.get n = some c)

include h hget

theorem Synced.listing_none : r.listing = none := by
  cases hl : r.listing with
  | none => rfl
  | some cur => cases ((h.listed cur hl).2 n).symm.trans hget

theorem Synced.saved {c' : SeamCall K Q}
    (hta : c'.target = c.target) (hs : c'.unsaved = false)
    (hst : WellFormed M store)
    (ho : ∀ k, k ≠ c.target → store.get (M.key k) = r.overrides.get (M.key k))
    (hin : CallInv M store c') : Synced M ({ r with overrides := store }.setCall n c') := by
  have hn := h.listing_none hget
  have ht : ∀ m d, (r.calls.put n c').get m = some d →
      ∃ e, r.calls.get m = some e ∧ e.target = d.target := by
    intro m d hm
    rcases get_put_eq_some.mp hm with ⟨rfl,rfl⟩ | ⟨-,hm'⟩
    · exact ⟨c,hget,hta.symm⟩
    · exact ⟨d,hm',rfl⟩
  refine ⟨h.sound,hst,?_,?_,?_,?_,h.polled⟩
  · intro m j d e hm hj heq
    obtain ⟨d',hm',hd⟩ := ht m d hm
    obtain ⟨e',hj',he⟩ := ht j e hj
    exact h.single m j d' e' hm' hj' (hd.trans (heq.trans he.symm))
  · intro m d hm
    rcases get_put_eq_some.mp hm with ⟨rfl,rfl⟩ | ⟨hne,hm'⟩
    · exact hin
    · exact (h.calls m d hm').other (ho _ fun heq => hne (h.single m n d c hm' hget heq))
  · intro cur hc
    cases hn.symm.trans hc
  · intro hf _ k hk
    have hkc : k ≠ c.target := by
      rintro rfl
      have hu := hk n c' (get_put_self _ _ _) hta
      cases hs.symm.trans hu
    have hold : M.held r.locals k = r.desired M k := by
      apply h.synced hf hn k
      intro m d hm hd
      have hmn : m ≠ n := by
        rintro rfl
        obtain rfl := some.inj (hget.symm.trans hm)
        exact hkc hd.symm
      exact hk m d ((get_put_ne _ _ hmn).trans hm) hd
    exact hold.trans (congrArg (fun raw => raw.bind (M.decode k)) (ho k hkc).symm)

theorem Synced.ended (hs : M.Sound locals)
    (ho : ∀ k, k ≠ c.target → M.held locals k = M.held r.locals k)
    (hse : r.watch.first = false → M.held locals c.target = r.desired M c.target) :
    Synced M ({ r with locals := locals }.endCall n) := by
  have hn := h.listing_none hget
  refine ⟨hs,h.wellFormed,?_,?_,?_,?_,h.polled⟩
  · intro m j d e hm hj heq
    exact h.single m j d e (get_del_eq_some.mp hm).2 (get_del_eq_some.mp hj).2 heq
  · intro m d hm
    exact h.calls m d (get_del_eq_some.mp hm).2
  · intro cur hc
    cases hn.symm.trans hc
  · intro hf _ k hk
    by_cases hkc : k = c.target
    · subst hkc
      exact hse hf
    · refine (ho k hkc).trans (h.synced hf hn k fun m d hm hd => ?_)
      have hmn : m ≠ n := by
        rintro rfl
        obtain rfl := some.inj (hget.symm.trans hm)
        exact hkc hd.symm
      exact hk m d (get_del_eq_some.mpr ⟨hmn,hm⟩) hd

theorem Synced.held_unsaved (hu : c.unsaved = true) (hf : r.watch.first = false) :
    M.held r.locals c.target = r.desired M c.target := by
  apply h.synced hf (h.listing_none hget)
  intro m d hm hd
  obtain rfl := h.single m n d c hm hget hd
  obtain rfl := some.inj (hget.symm.trans hm)
  exact hu

theorem Synced.advance {ok : Bool} (now : Int)
    (hok : c.deletes = true → ok = true) : Synced M (r.advance M n ok now c) := by
  have hin := h.calls n c hget
  cases c with
  | setting k q =>
    cases ok with
    | true =>
      refine h.saved hget rfl rfl (h.wellFormed.put hin) ?_ ⟨hin,get_put_self _ _ _⟩
      exact fun j hj => get_put_ne _ _ fun heq => hj (M.key_injective heq)
    | false => exact h.ended hget h.sound (fun _ _ => rfl) (h.held_unsaved hget rfl)
  | applyingSet k q =>
    refine h.ended hget (M.sound_set _ _ _ _ h.sound hin.1)
      (fun j hj => M.held_set_ne _ _ _ _ j hj) fun _ => ?_
    exact (M.held_set_self _ _ _ _ hin.1).trans
      (congrArg (fun raw => raw.bind (M.decode k)) hin.2).symm
  | removing k =>
    obtain rfl := hok rfl
    refine h.saved hget rfl rfl (h.wellFormed.del _) ?_ (get_del_self _ _)
    exact fun j hj => get_del_ne _ fun heq => hj (M.key_injective heq)
  | applyingRemove k =>
    refine h.ended hget (M.sound_remove _ _ h.sound) (fun j hj => M.held_remove_ne _ _ j hj)
      fun _ => ?_
    exact (M.held_remove_self _ _).trans (congrArg (fun raw => raw.bind (M.decode k)) hin).symm

end

theorem Synced.poll (h : Synced M r)
    (hok : r.watch.applies (r.overrides.list M.keySpace) = true → r.calls.len = 0)
    (hp : r.poll M = some r') : Synced M r' := by
  unfold SeamReplica.poll at hp
  split at hp
  · next hn =>
    dsimp only at hp
    split at hp
    · next ha =>
      cases hp
      have hle := hok ha
      refine ⟨h.sound,h.wellFormed,h.single,h.calls,?_,?_,fun _ => rfl⟩
      · intro cur hc
        exact ⟨(some.inj hc).symm,get_of_len_zero hle⟩
      · nofun
    · next ha =>
      cases hp
      refine { h with polled := fun _ => ?_ }
      rw [Bool.eq_false_iff]
      exact fun hf => ha (OverrideWatch.applies_of_first hf _)
  · cases hp

theorem Synced.apply (h : Synced M r) {now : Int} {order : List (GoString × GoString)}
    (ha : r.apply M now order = some r') : Synced M r' := by
  obtain ⟨cur,hc,hie⟩ := bind_eq_some_iff.mp ha
  obtain ⟨ho,rfl⟩ := Run.guard_pos hie
  obtain ⟨rfl,hn⟩ := h.listed cur hc
  have he : ∀ name raw, (r.overrides.list M.keySpace).get name = some raw →
      ∃ k, name = M.key k ∧ (M.decode k raw).isSome := by
    intro name raw hget
    rw [OverrideStore.list,GoMap.get_filter,filter_eq_some_iff] at hget
    exact h.wellFormed name raw hget.1 hget.2
  refine { h with
    sound := M.sound_applyPersisted _ _ _ _ h.sound ho he
    listed := fun _ hl => (by cases hl)
    synced := ?_ }
  intro _ _ k _
  refine (M.held_applyPersisted _ _ _ _ h.sound ho he k).trans ?_
  rw [OverrideStore.get_list (M.key_listed k)]
  rfl

theorem Synced.step [DecidableEq K] (h : Synced M r) {a : SeamAct K Q} (hok : Apart M r a)
    (hs : r.step M a = some r') : Synced M r' := by
  cases a with
  | set n k q =>
    simp [SeamReplica.step] at hs
    split at hs
    · next ha => exact h.call hs hok ha
    · cases hs
      exact h
  | remove n k => exact h.call hs hok trivial
  | advance n ok now =>
    obtain ⟨c,hget,rfl⟩ := map_eq_some_iff.mp hs
    exact h.advance hget now fun hd => hok (by rw [hget]; exact hd)
  | poll => exact h.poll hok hs
  | apply now order => exact h.apply hs

theorem held_eq_desired [DecidableEq K] {overrides : OverrideStore}
    (hs : M.Sound locals) (hst : WellFormed M overrides)
    (hr : Run.Reaches (step M) (Apart M) (start locals overrides) r) (hc : r.calls.len = 0)
    (hl : r.listing = none) (hp : r.polled = true) (k : K) :
    M.held r.locals k = r.desired M k := by
  have h := hr.invariant (Synced M) (synced_start hs hst)
    fun _ _ _ h hok hse => h.step hok hse
  refine h.synced (h.polled hp) hl k fun n c hget => ?_
  cases (get_of_len_zero hc n).symm.trans hget

end

end SeamReplica

end SageGateway
