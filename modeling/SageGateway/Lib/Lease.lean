import Mathlib.Algebra.Order.Group.Int

-- What a caller learns of a command sent to a remote store: it may have been applied though the
-- reply was lost.
inductive RemoteReply where
  | ok
  | failed (applied : Bool)
  deriving DecidableEq

namespace RemoteReply

def applied : RemoteReply → Bool
  | .ok => true
  | .failed applied => applied

def isOk : RemoteReply → Bool
  | .ok => true
  | .failed _ => false

theorem applied_of_isOk {reply : RemoteReply} (h : reply.isOk = true) : reply.applied = true := by
  cases reply with
  | ok => rfl
  | failed applied => cases h

end RemoteReply

structure Lease (H : Type) where
  holder : H
  expiresAt : Int
  deriving DecidableEq

namespace Lease

variable {H : Type}

def holderAt (now : Int) (c : Option (Lease H)) : Option H :=
  c.bind fun l => if now < l.expiresAt then some l.holder else none

def HeldUntil (h : H) (t : Int) (c : Option (Lease H)) : Prop :=
  ∃ l, c = some l ∧ l.holder = h ∧ t ≤ l.expiresAt

def setNX (now ttl : Int) (h : H) (c : Option (Lease H)) : Option (Lease H) × Bool :=
  match holderAt now c with
  | none => (some ⟨h,now + ttl⟩,true)
  | some _ => (c,false)

def extend [DecidableEq H] (now ttl : Int) (h : H) (c : Option (Lease H)) :
    Option (Lease H) × Bool :=
  if holderAt now c = some h then (some ⟨h,now + ttl⟩,true) else (c,false)

variable {now now' ttl t t' : Int} {h g : H} {c : Option (Lease H)}

theorem holderAt_eq_some : holderAt now c = some h ↔
    ∃ l, c = some l ∧ l.holder = h ∧ now < l.expiresAt := by
  unfold holderAt
  rw [Option.bind_eq_some_iff]
  refine exists_congr fun l => and_congr_right fun _ => ?_
  rw [Option.ite_none_right_eq_some,Option.some.injEq]
  exact and_comm

theorem holderAt_of_le (hle : now ≤ now') (hh : holderAt now' c = some h) :
    holderAt now c = some h := by
  obtain ⟨l,hl,hho,hlt⟩ := holderAt_eq_some.mp hh
  exact holderAt_eq_some.mpr ⟨l,hl,hho,hle.trans_lt hlt⟩

theorem HeldUntil.holderAt (hh : HeldUntil h t c) (hlt : now < t) :
    Lease.holderAt now c = some h := by
  obtain ⟨l,hl,hho,hle⟩ := hh
  exact holderAt_eq_some.mpr ⟨l,hl,hho,hlt.trans_le hle⟩

theorem HeldUntil.of_le (hh : HeldUntil h t c) (hle : t' ≤ t) : HeldUntil h t' c := by
  obtain ⟨l,hl,hho,ht⟩ := hh
  exact ⟨l,hl,hho,hle.trans ht⟩

def Takes (now ttl : Int) (h : H) (c : Option (Lease H)) (out : Option (Lease H) × Bool) : Prop :=
  (out = (some ⟨h,now + ttl⟩,true) ∧ ∀ g, holderAt now c = some g → g = h) ∨ out = (c,false)

theorem setNX_takes (now ttl : Int) (h : H) (c : Option (Lease H)) :
    Takes now ttl h c (setNX now ttl h c) := by
  unfold setNX
  cases hc : holderAt now c with
  | none => exact .inl ⟨rfl,fun g hg => by cases hc.symm.trans hg⟩
  | some g => exact .inr rfl

theorem extend_takes [DecidableEq H] (now ttl : Int) (h : H) (c : Option (Lease H)) :
    Takes now ttl h c (extend now ttl h c) := by
  unfold extend
  split
  · rename_i hc
    exact .inl ⟨rfl,fun g hg => Option.some.inj (hg.symm.trans hc)⟩
  · exact .inr rfl

theorem extend_of_refused [DecidableEq H] (ho : (extend now ttl h c).2 = false) :
    holderAt now c ≠ some h := by
  intro hc
  rw [extend,if_pos hc] at ho
  cases ho

variable {out : Option (Lease H) × Bool}

section

variable (ht : Takes now ttl h c out)

include ht

theorem Takes.heldUntil (ho : out.2 = true) : HeldUntil h (now + ttl) out.1 := by
  obtain ⟨rfl,-⟩ | rfl := ht
  · exact ⟨_,rfl,rfl,Int.le_refl _⟩
  · cases ho

theorem Takes.unchanged (ho : out.2 = false) : out.1 = c := by
  obtain ⟨rfl,-⟩ | rfl := ht
  · cases ho
  · rfl

theorem Takes.keeps (hne : g ≠ h) (hh : HeldUntil g t c) (hlt : now < t) : out.1 = c := by
  obtain ⟨rfl,hf⟩ | rfl := ht
  · exact absurd (hf g (hh.holderAt hlt)) hne
  · rfl

theorem Takes.holder_other (hne : g ≠ h)
    (hg : holderAt now' out.1 = some g) : holderAt now' c = some g := by
  obtain ⟨rfl,-⟩ | rfl := ht
  · obtain ⟨l,hl,hh,-⟩ := holderAt_eq_some.mp hg
    cases hl
    exact absurd hh.symm hne
  · exact hg

end

end Lease
