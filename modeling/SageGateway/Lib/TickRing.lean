import Mathlib.Algebra.BigOperators.Fin
import Mathlib.Data.Fintype.EquivFin
import Mathlib.Data.Int.ModEq

namespace TickRing

open List
open Function (update_of_ne update_self)

structure Cell (α : Type) where
  tick : Nat
  value : α
  deriving DecidableEq

-- One cell for each residue of the tick, cleared when it is next written at another tick.
abbrev Ring (n : Nat) (α : Type) := Fin n → Cell α

variable {n : Nat} {α : Type}

def new (empty : α) : Ring n α := fun _ => ⟨0,empty⟩

def cell (n : Nat) [NeZero n] (tick : Nat) : Fin n := Fin.ofNat n tick

def modify [NeZero n] (empty : α) (tick : Nat) (f : α → α) (r : Ring n α) : Ring n α :=
  let c := if (r (cell n tick)).tick ≠ tick then ⟨tick,empty⟩ else r (cell n tick)
  Function.update r (cell n tick) ⟨c.tick,f c.value⟩

def live (oldest : Nat) (r : Ring n α) : List α :=
  (List.ofFn r).filterMap fun c => if c.tick < oldest then none else some c.value

def total (obs : α → Nat) (oldest : Nat) (r : Ring n α) : Nat := ((live oldest r).map obs).sum

def since (oldest : Nat) (events : List (Nat × Nat)) : Nat :=
  ((events.filter fun e => decide (oldest ≤ e.1)).map Prod.snd).sum

theorem since_cons (oldest tick w : Nat) (events : List (Nat × Nat)) :
    since oldest ((tick,w) :: events) = (if tick < oldest then 0 else w) + since oldest events := by
  unfold since
  by_cases hold : tick < oldest
  · rw [filter_cons_of_neg (by simpa using hold),if_pos hold,Nat.zero_add]
  · rw [filter_cons_of_pos (by simpa using hold),if_neg hold,map_cons,sum_cons]

theorem since_countP {β : Type} (oldest : Nat) (tick : β → Nat) (p : β → Bool) (log : List β) :
    since oldest (log.map fun e => (tick e,(p e).toNat)) =
      log.countP fun e => decide (oldest ≤ tick e) && p e := by
  induction log with
  | nil => rfl
  | cons e log ih =>
    rw [map_cons,since_cons,ih,countP_cons]
    by_cases hold : tick e < oldest
    · simp [hold,Nat.not_le.mpr hold]
    · cases hp : p e <;> simp [hold,Nat.not_lt.mp hold,Nat.add_comm]

def share (obs : α → Nat) (oldest : Nat) (c : Cell α) : Nat :=
  if c.tick < oldest then 0 else obs c.value

theorem total_eq_sum (obs : α → Nat) (oldest : Nat) (r : Ring n α) :
    total obs oldest r = ∑ i, share obs oldest (r i) := by
  have hl : ∀ cs : List (Cell α),
      ((cs.filterMap fun c => if c.tick < oldest then none else some c.value).map obs).sum =
        (cs.map (share obs oldest)).sum := by
    intro cs
    induction cs with
    | nil => rfl
    | cons c cs ih =>
      by_cases hold : c.tick < oldest
      · simp [hold,share,ih]
      · simp [hold,share,ih]
  rw [total,live,hl,map_ofFn,sum_ofFn]
  rfl

theorem total_update (obs : α → Nat) (oldest : Nat) (r : Ring n α) (i : Fin n) (c : Cell α) :
    total obs oldest (Function.update r i c) + share obs oldest (r i) =
      total obs oldest r + share obs oldest c := by
  have hs : ∀ q : Ring n α, ∑ j, share obs oldest (q j) =
      share obs oldest (q i) + ∑ j ∈ Finset.univ.erase i, share obs oldest (q j) :=
    fun q => (Finset.add_sum_erase _ _ (Finset.mem_univ i)).symm
  have hr : ∑ j ∈ Finset.univ.erase i, share obs oldest (Function.update r i c j) =
      ∑ j ∈ Finset.univ.erase i, share obs oldest (r j) := by
    refine Finset.sum_congr rfl fun j hj => ?_
    rw [update_of_ne (Finset.ne_of_mem_erase hj)]
  rw [total_eq_sum,total_eq_sum,hs,hs r,update_self]
  omega

variable [NeZero n]

theorem tick_le_of_cell_eq {a b : Nat} (h : cell n a = cell n b) (hlt : a < b) : a + n ≤ b := by
  have hm : a % n = b % n := congrArg Fin.val h
  have hd : n ∣ b - a := Nat.dvd_of_mod_eq_zero (Nat.sub_mod_eq_zero_of_mod_eq hm.symm)
  have hle := Nat.le_of_dvd (Nat.sub_pos_of_lt hlt) hd
  omega

-- The ring holds what was written to it: over any window as long as the ring and not ending before
-- the last write, the observation's total is that of the events in the window.
structure Counted (obs : α → Nat) (r : Ring n α) (now : Nat) (events : List (Nat × Nat)) :
    Prop where
  past : ∀ i, (r i).tick ≤ now
  placed : ∀ i, cell n (r i).tick = i ∨ obs (r i).value = 0
  counts : ∀ upto, now ≤ upto → total obs (upto + 1 - n) r = since (upto + 1 - n) events

section

variable {obs : α → Nat} {r : Ring n α} {now tick w : Nat} {events : List (Nat × Nat)}
  {empty : α} {f : α → α}

theorem Counted.new (h : obs empty = 0) (now : Nat) :
    Counted obs (TickRing.new empty : Ring n α) now [] where
  past _ := Nat.zero_le _
  placed _ := .inr h
  counts upto _ := by
    rw [total_eq_sum]
    refine Finset.sum_eq_zero fun i _ => ?_
    unfold share
    split
    · rfl
    · exact h

theorem Counted.idle (h : Counted obs r now events) (hle : now ≤ tick) :
    Counted obs r tick ((tick,0) :: events) where
  past i := (h.past i).trans hle
  placed := h.placed
  counts upto hu := by
    rw [since_cons,ite_self,Nat.zero_add]
    exact h.counts upto (hle.trans hu)

theorem modify_cell (r : Ring n α) :
    modify empty tick f r = Function.update r (cell n tick)
      ⟨tick,f (if (r (cell n tick)).tick = tick then (r (cell n tick)).value else empty)⟩ := by
  unfold modify
  by_cases ht : (r (cell n tick)).tick = tick
  · simp [ht]
  · simp [ht]

theorem Counted.share_old (h : Counted obs r now events) (hle : now ≤ tick)
    (hne : (r (cell n tick)).tick ≠ tick) {upto : Nat} (hu : tick ≤ upto) :
    share obs (upto + 1 - n) (r (cell n tick)) = 0 := by
  unfold share
  split
  · rfl
  · next hin =>
    rcases h.placed (cell n tick) with hc | hz
    · have hlt : (r (cell n tick)).tick < tick :=
        Nat.lt_of_le_of_ne ((h.past _).trans hle) hne
      have hf := tick_le_of_cell_eq hc hlt
      omega
    · exact hz

theorem Counted.modify (h : Counted obs r now events) (hle : now ≤ tick) (he : obs empty = 0)
    (hf : ∀ v, obs (f v) = obs v + w) :
    Counted obs (TickRing.modify empty tick f r) tick ((tick,w) :: events) := by
  rw [modify_cell]
  refine ⟨fun i => ?_,fun i => ?_,fun upto hu => ?_⟩
  · by_cases hi : i = cell n tick
    · rw [hi,update_self]
    · rw [update_of_ne hi]
      exact (h.past i).trans hle
  · by_cases hi : i = cell n tick
    · rw [hi,update_self]
      exact .inl rfl
    · rw [update_of_ne hi]
      exact h.placed i
  · have hup := total_update obs (upto + 1 - n) r (cell n tick)
      ⟨tick,f (if (r (cell n tick)).tick = tick then (r (cell n tick)).value else empty)⟩
    rw [since_cons,← h.counts upto (Nat.le_trans hle hu)]
    by_cases ht : (r (cell n tick)).tick = tick
    · rw [if_pos ht] at hup ⊢
      unfold share at hup
      rw [ht,hf] at hup
      by_cases hold : tick < upto + 1 - n
      · rw [if_pos hold,if_pos hold] at hup
        rw [if_pos hold]
        omega
      · rw [if_neg hold,if_neg hold] at hup
        rw [if_neg hold]
        omega
    · rw [if_neg ht] at hup ⊢
      rw [h.share_old hle ht hu] at hup
      unfold share at hup
      rw [hf,he,Nat.zero_add] at hup
      rwa [Nat.add_comm _ (total obs _ r)]

end

end TickRing

namespace Stride

-- Positions in the order a cursor visits them: from a on, k apart, modulo n.
def position (n k a : Nat) (hn : 0 < n) (j : Fin n) : Fin n := ⟨(a + j * k) % n,Nat.mod_lt _ hn⟩

theorem position_injective {n k : Nat} (hn : 0 < n) (hk : Nat.Coprime k n) (a : Nat) :
    Function.Injective (position n k a hn) := by
  intro i j hij
  have hm : a + i * k ≡ a + j * k [MOD n] := congrArg Fin.val hij
  have hmu : i * k ≡ j * k [MOD n] := Nat.ModEq.add_left_cancel' a hm
  have hr : (i : Nat) ≡ j [MOD n] := Nat.ModEq.cancel_right_of_coprime hk.symm hmu
  exact Fin.ext (Nat.ModEq.eq_of_lt_of_lt hr i.isLt j.isLt)

theorem visits {n k : Nat} (hk : Nat.Coprime k n) (a : Nat) {r : Nat} (hr : r < n) :
    ∃ j < n, (a + j * k) % n = r := by
  have hn : 0 < n := (Nat.zero_le r).trans_lt hr
  obtain ⟨j,hj⟩ := Finite.surjective_of_injective (position_injective hn hk a) ⟨r,hr⟩
  exact ⟨j,j.isLt,congrArg Fin.val hj⟩

end Stride
