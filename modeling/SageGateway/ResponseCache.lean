import Mathlib.Algebra.Ring.Int.Defs
import SageGateway.Lib.GoMap
import SageGateway.Lib.GoString

namespace SageGateway.ResponseCache

open List GoMap

structure Entry (R : Type) where
  response : R
  expiry : Int
  key : GoString
  size : Nat
  deriving DecidableEq

structure Cache (R : Type) where
  entries : GoMap GoString (Entry R)
  order : List (Entry R)
  maxSize : Nat
  bytes : Int
  maxBytes : Nat

variable {R : Type}

def maxBytes : Nat := 67108864

def limit (maxSize : Int) : Nat := if maxSize ≤ 0 then 1024 else maxSize.toNat

def newCache (maxSize : Int) : Cache R := ⟨∅,[],limit maxSize,0,maxBytes⟩

section

variable [DecidableEq R]

namespace Cache

def removeElement (c : Cache R) (e : Entry R) : Cache R :=
  { c with order := c.order.erase e, entries := c.entries.del e.key, bytes := c.bytes - e.size }

def get (c : Cache R) (key : GoString) (now : Int) : Option R × Cache R :=
  match c.entries.get key with
  | none => (none,c)
  | some e =>
      if e.expiry < now then (none,c.removeElement e)
      else (some e.response,{ c with order := c.order.erase e ++ [e] })

def dropFront (p : Cache R → Entry R → Bool) : Nat → Cache R → Cache R
  | 0,c => c
  | fuel + 1,c =>
      match c.order with
      | [] => c
      | e :: _ => if p c e then dropFront p fuel (c.removeElement e) else c

def sweep (c : Cache R) (now : Int) : Cache R :=
  c.dropFront (fun _ e => e.expiry < now) c.order.length

def evict (c : Cache R) (size : Nat) : Cache R :=
  c.dropFront (fun c _ => c.maxSize ≤ c.entries.len || c.maxBytes < c.bytes + size) c.order.length

def set (body : R → Nat) (c : Cache R) (key : GoString) (resp : R) (ttl now : Int) : Cache R :=
  let size := body resp
  if ttl ≤ 0 ∨ c.maxBytes < size then c
  else
    let c := (((c.entries.get key).elim c c.removeElement).sweep now).evict size
    let e : Entry R := ⟨resp,now + ttl,key,size⟩
    { c with entries := c.entries.put key e, order := c.order ++ [e], bytes := c.bytes + size }

end Cache

inductive Op (R : Type) where
  | get (key : GoString) (now : Int)
  | set (key : GoString) (resp : R) (ttl now : Int)

def Op.apply (body : R → Nat) (c : Cache R) : Op R → Cache R
  | .get key now => (c.get key now).2
  | .set key resp ttl now => c.set body key resp ttl now

-- The calls stand newest first.
def run (body : R → Nat) (maxSize : Int) : List (Op R) → Cache R
  | [] => newCache maxSize
  | op :: log => op.apply body (run body maxSize log)

def Op.stored (body : R → Nat) (key : GoString) : Op R → Option (Entry R)
  | .set k resp ttl now =>
      if k = key ∧ ¬(ttl ≤ 0 ∨ maxBytes < body resp) then some ⟨resp,now + ttl,key,body resp⟩
      else none
  | .get .. => none

def latest (body : R → Nat) (log : List (Op R)) (key : GoString) : Option (Entry R) :=
  log.findSome? (Op.stored body key)

end

structure Inv (n : Int) (c : Cache R) : Prop where
  same : Iterates c.entries (c.order.map fun e => (e.key,e))
  bytes : c.bytes = (c.order.map fun e => (e.size : Int)).sum
  size : c.maxSize = limit n
  cap : c.maxBytes = maxBytes

def Full (n : Int) (size : Nat) (l : List (Entry R)) : Prop :=
  limit n ≤ l.length ∨ (maxBytes : Int) < (l.map fun e => (e.size : Int)).sum + size

def Due (n : Int) (size : Nat) (now : Int) (l : List (Entry R)) : Prop :=
  (∃ e ∈ l.head?, e.expiry < now) ∨ Full n size l

variable {n : Int} {c : Cache R} {e : Entry R} {key : GoString}

namespace Inv

variable (h : Inv n c)

include h

theorem get_iff : c.entries.get key = some e ↔ e ∈ c.order ∧ e.key = key := by
  rw [← h.same.mem_iff]
  simp [and_comm,eq_comm]

theorem reorder {l : List (Entry R)} (hl : l.Perm c.order) : Inv n { c with order := l } :=
  { h with
    same := ((hl.map _).map _).trans h.same
    bytes := h.bytes.trans (hl.map _).sum_eq.symm }

theorem push (hk : ∀ x ∈ c.order, x.key ≠ e.key) : Inv n { c with
      entries := c.entries.put e.key e, order := c.order ++ [e], bytes := c.bytes + e.size } := by
  have hn : c.entries.get e.key = none := Option.eq_none_iff_forall_ne_some.mpr fun x hx =>
    hk x (h.get_iff.mp hx).1 (h.get_iff.mp hx).2
  refine { h with same := ?_, bytes := by simp [h.bytes] }
  simpa [Iterates,put,kerase_of_notMem_keys (AList.lookup_eq_none.mp hn)] using
    (perm_append_singleton _ _).trans (h.same.cons ⟨e.key,e⟩)

theorem nodup : c.order.Nodup := by
  have hn := h.same.nodup
  rw [map_map] at hn
  exact hn.of_map

theorem length : c.entries.len = c.order.length := by
  simpa [len] using (List.Perm.length_eq h.same).symm

variable [DecidableEq R]

theorem remove (he : e ∈ c.order) : Inv n (c.removeElement e) := by
  have hr := h.reorder (perm_cons_erase he).symm
  refine { h with same := ?_, bytes := ?_ }
  · have hn := (perm_nodupKeys hr.same).mpr c.entries.nodupKeys
    have hk := List.Perm.kerase (a := e.key) hn hr.same
    simpa [Iterates,Cache.removeElement,entries_del] using hk
  · have hb := hr.bytes
    simp at hb
    simp [Cache.removeElement,hb]

theorem dropFront (p : Cache R → Entry R → Bool) {fuel : Nat} (hf : c.order.length ≤ fuel) :
    Inv n (c.dropFront p fuel) ∧
    (∃ k, (c.dropFront p fuel).order = c.order.drop k ∧
      ∀ j < k, ∃ d, Inv n d ∧ d.order = c.order.drop j ∧ ∃ e ∈ d.order.head?, p d e) ∧
    ∀ e ∈ (c.dropFront p fuel).order.head?, p (c.dropFront p fuel) e = false := by
  induction fuel generalizing c with
  | zero =>
    have ho := length_eq_zero_iff.mp (Nat.le_zero.mp hf)
    exact ⟨h,⟨0,rfl,nofun⟩,by simp [Cache.dropFront,ho]⟩
  | succ fuel ih =>
    unfold Cache.dropFront
    split
    · next ho => exact ⟨h,⟨0,rfl,nofun⟩,by simp [ho]⟩
    · next e l ho =>
      split_ifs with hp
      · have hl : (c.removeElement e).order = l := by simp [Cache.removeElement,ho]
        rw [ho] at hf
        obtain ⟨hi,⟨k,hk,hd⟩,he⟩ := ih (h.remove (ho ▸ .head _)) (hl ▸ Nat.le_of_succ_le_succ hf)
        refine ⟨hi,⟨k + 1,by rw [hk,hl,ho]; rfl,fun j hj => ?_⟩,he⟩
        cases j with
        | zero => exact ⟨c,h,rfl,e,by rw [ho]; rfl,hp⟩
        | succ j => simpa [hl,ho] using hd j (Nat.lt_of_succ_lt_succ hj)
      · exact ⟨h,⟨0,rfl,nofun⟩,by simpa [ho] using hp⟩

theorem cleared (key : GoString) : Inv n ((c.entries.get key).elim c c.removeElement) ∧
    ((c.entries.get key).elim c c.removeElement).order = c.order.filter (·.key != key) := by
  cases hk : c.entries.get key with
  | none =>
    refine ⟨h,(filter_eq_self.mpr fun e he => bne_iff_ne.mpr fun heq => ?_).symm⟩
    cases hk.symm.trans (h.get_iff.mpr ⟨he,heq⟩)
  | some e =>
    obtain ⟨he,hke⟩ := h.get_iff.mp hk
    refine ⟨h.remove he,(h.nodup.erase_eq_filter e).trans (filter_congr fun x hx => ?_)⟩
    by_cases hxk : x.key = key
    · cases hk.symm.trans (h.get_iff.mpr ⟨hx,hxk⟩)
      simp [hke]
    · have hne : x ≠ e := fun hxe => hxk (hxe ▸ hke)
      rw [bne_iff_ne.mpr hne,bne_iff_ne.mpr hxk]

theorem evict {size : Nat} (hs : size ≤ maxBytes) : Inv n (c.evict size) ∧
    (∃ k, (c.evict size).order = c.order.drop k ∧ ∀ j < k, Full n size (c.order.drop j)) ∧
    (c.evict size).order.length < limit n ∧ (c.evict size).bytes + size ≤ maxBytes := by
  have hd := h.dropFront
    (fun c _ => c.maxSize ≤ c.entries.len || c.maxBytes < c.bytes + size) le_rfl
  unfold Cache.evict
  generalize Cache.dropFront _ _ c = d at hd ⊢
  obtain ⟨hi,hk,hf⟩ := hd
  obtain ⟨k,hk,hj⟩ := hk
  refine ⟨hi,⟨k,hk,fun j hjk => ?_⟩,?_⟩
  · obtain ⟨b,hb,hbo,-,-,hp⟩ := hj j hjk
    simpa [Full,hb.length,hb.size,hb.cap,hb.bytes,hbo] using hp
  cases ho : d.order with
  | nil =>
    have hz : d.bytes = 0 := by simpa [ho] using hi.bytes
    have hp : 0 < limit n := by
      unfold limit
      split_ifs <;> omega
    exact ⟨hp,by omega⟩
  | cons e l =>
    have he := hf e (by rw [ho]; rfl)
    simp [hi.length,hi.size,hi.cap] at he
    rw [← ho]
    omega

theorem room {size : Nat} (hs : size ≤ maxBytes) (key : GoString) (now : Int) :
    let d := (((c.entries.get key).elim c c.removeElement).sweep now).evict size
    Inv n d ∧
      (∃ k, d.order = (c.order.filter (·.key != key)).drop k ∧
        ∀ j < k, Due n size now ((c.order.filter (·.key != key)).drop j)) ∧
      d.order.length < limit n ∧ d.bytes + size ≤ maxBytes := by
  obtain ⟨hc,ho⟩ := h.cleared key
  rw [← ho]
  obtain ⟨hw,⟨k,hk,hx⟩,-⟩ := hc.dropFront (fun _ e => e.expiry < now) le_rfl
  obtain ⟨hi,⟨m,hm,hf⟩,hr⟩ := hw.evict hs
  refine ⟨hi,⟨k + m,?_,fun j hj => ?_⟩,hr⟩
  · rw [← drop_drop,← hk]
    exact hm
  · by_cases hjk : j < k
    · obtain ⟨b,-,hb,e,he,hp⟩ := hx j hjk
      exact .inl ⟨e,hb ▸ he,of_decide_eq_true hp⟩
    · have hj := hf (j - k) (by omega)
      rw [hk,drop_drop,Nat.add_sub_cancel' (Nat.le_of_not_lt hjk)] at hj
      exact .inr hj

theorem set_order (body : R → Nat) (key : GoString) (resp : R) (ttl now : Int) :
    let l := c.order.filter (·.key != key)
    if ttl ≤ 0 ∨ maxBytes < body resp then c.set body key resp ttl now = c
    else ∃ k, (c.set body key resp ttl now).order =
      l.drop k ++ [⟨resp,now + ttl,key,body resp⟩] ∧ ∀ j < k, Due n (body resp) now (l.drop j) := by
  unfold Cache.set
  dsimp only
  rw [h.cap]
  split_ifs with ha
  · rfl
  · obtain ⟨-,⟨k,hk,hd⟩,-⟩ := h.room (by omega : body resp ≤ maxBytes) key now
    exact ⟨k,congrArg (· ++ _) hk,hd⟩

end Inv

variable [DecidableEq R]

structure Sound (body : R → Nat) (n : Int) (log : List (Op R)) (c : Cache R) : Prop
    extends Inv n c where
  count : c.order.length ≤ limit n
  fits : c.bytes ≤ maxBytes
  latest : ∀ e ∈ c.order, latest body log e.key = some e

namespace Sound

variable {body : R → Nat} {log : List (Op R)} (h : Sound body n log c)

include h

theorem get (key : GoString) (now : Int) :
    Sound body n (.get key now :: log) (c.get key now).2 := by
  unfold Cache.get
  split
  · exact { h with }
  · next e he =>
    obtain ⟨hm,-⟩ := h.get_iff.mp he
    split_ifs
    · exact { h.remove hm with
        count := length_erase_le.trans h.count
        fits := (Int.sub_le_self _ (Int.natCast_nonneg _)).trans h.fits
        latest := fun x hx => h.latest x (mem_of_mem_erase hx) }
    · have hp := (perm_append_singleton e _).trans (perm_cons_erase hm).symm
      exact { h.reorder hp with
        count := hp.length_eq.trans_le h.count
        fits := h.fits
        latest := fun x hx => h.latest x (hp.mem_iff.mp hx) }

theorem answer (key : GoString) (now : Int) : (c.get key now).1 = none ∨
    ∃ e ∈ c.order, ResponseCache.latest body log key = some e ∧ now ≤ e.expiry ∧
      (c.get key now).1 = some e.response := by
  unfold Cache.get
  split
  · exact .inl rfl
  · next e he =>
    obtain ⟨hm,rfl⟩ := h.get_iff.mp he
    split_ifs with hx
    · exact .inl rfl
    · exact .inr ⟨e,hm,h.latest e hm,Int.not_lt.mp hx,rfl⟩

theorem set (key : GoString) (resp : R) (ttl now : Int) :
    Sound body n (.set key resp ttl now :: log) (c.set body key resp ttl now) := by
  unfold Cache.set
  dsimp only
  rw [h.cap]
  split_ifs with ha
  · refine { h with latest := fun x hx => ?_ }
    simpa [ResponseCache.latest,Op.stored,ha] using h.latest x hx
  · obtain ⟨hi,⟨k,hk,-⟩,hc,hf⟩ := h.room (by omega : body resp ≤ maxBytes) key now
    have hx : ∀ x ∈ (c.order.filter (·.key != key)).drop k, x ∈ c.order ∧ x.key ≠ key :=
      fun x hx => by simpa using mem_of_mem_drop hx
    rw [← hk] at hx
    refine { hi.push (e := ⟨resp,now + ttl,key,body resp⟩) fun x hm => (hx x hm).2 with
      count := (length_append ..).trans_le hc, fits := hf, latest := fun x hm => ?_ }
    rcases mem_append.mp hm with hm | hm
    · obtain ⟨hm,hne⟩ := hx x hm
      simpa [ResponseCache.latest,Op.stored,Ne.symm hne] using h.latest x hm
    · cases mem_singleton.mp hm
      simp [ResponseCache.latest,Op.stored,ha]

end Sound

theorem sound_run (body : R → Nat) (n : Int) (log : List (Op R)) :
    Sound body n log (run body n log) := by
  induction log with
  | nil => exact ⟨⟨.nil,rfl,rfl,rfl⟩,Nat.zero_le _,Int.natCast_nonneg _,nofun⟩
  | cons op log ih =>
    cases op with
    | get key now => exact ih.get key now
    | set key resp ttl now => exact ih.set key resp ttl now

theorem cache_within_bounds (body : R → Nat) (maxSize : Int) (log : List (Op R)) :
    let c := run body maxSize log
    Iterates c.entries (c.order.map fun e => (e.key,e)) ∧ c.order.length ≤ limit maxSize ∧
      c.bytes = (c.order.map fun e => (e.size : Int)).sum ∧ c.bytes ≤ maxBytes := by
  have h := sound_run body maxSize log
  exact ⟨h.same,h.count,h.bytes,h.fits⟩

theorem get_answers_the_latest_set (body : R → Nat) (maxSize : Int) (log : List (Op R))
    (key : GoString) (now : Int) :
    ((run body maxSize log).get key now).1 = none ∨
    ∃ e ∈ (run body maxSize log).order, latest body log key = some e ∧ now ≤ e.expiry ∧
      ((run body maxSize log).get key now).1 = some e.response := by
  exact (sound_run body maxSize log).answer key now

theorem set_evicts_the_least_recent (body : R → Nat) (maxSize : Int) (log : List (Op R))
    (key : GoString) (resp : R) (ttl now : Int) :
    let c := run body maxSize log
    let l := c.order.filter (·.key != key)
    if ttl ≤ 0 ∨ maxBytes < body resp then c.set body key resp ttl now = c
    else ∃ k, (c.set body key resp ttl now).order =
      l.drop k ++ [⟨resp,now + ttl,key,body resp⟩] ∧
      ∀ j < k, Due maxSize (body resp) now (l.drop j) := by
  exact (sound_run body maxSize log).set_order body key resp ttl now

-- The keys that were set or found, newest first.
def uses (body : R → Nat) (n : Int) : List (Op R) → List GoString
  | [] => []
  | .get key now :: log =>
      if ((run body n log).get key now).1.isSome then key :: uses body n log else uses body n log
  | .set key resp ttl _ :: log =>
      if ttl ≤ 0 ∨ maxBytes < body resp then uses body n log else key :: uses body n log

-- Since its last use the second was used.
def Older (u : List GoString) (a b : Entry R) : Prop := u.idxOf b.key < u.idxOf a.key

omit [DecidableEq R] in
theorem pairwise_older_push {u : List GoString} {l : List (Entry R)} (h : l.Pairwise (Older u))
    (hk : ∀ x ∈ l, x.key ≠ e.key) : (l ++ [e]).Pairwise (Older (e.key :: u)) := by
  refine pairwise_append.mpr ⟨h.imp_of_mem fun ha hb ho => ?_,pairwise_singleton _ _,?_⟩
  · simpa [Older,idxOf_cons_ne _ (hk _ ha).symm,idxOf_cons_ne _ (hk _ hb).symm] using ho
  · intro a ha b hb
    cases mem_singleton.mp hb
    simp [Older,idxOf_cons_ne _ (hk a ha).symm]

theorem order_by_use (body : R → Nat) (n : Int) (log : List (Op R)) :
    (run body n log).order.Pairwise (Older (uses body n log)) := by
  induction log with
  | nil => exact .nil
  | cons op log ih =>
    have h := sound_run body n log
    cases op with
    | get key now =>
      simp only [run,Op.apply,uses]
      unfold Cache.get
      split
      · exact ih
      · next e he =>
        obtain ⟨hm,rfl⟩ := h.get_iff.mp he
        by_cases hx : e.expiry < now
        · simp only [if_pos hx]
          exact ih.sublist erase_sublist
        · simp only [if_neg hx]
          refine pairwise_older_push (ih.sublist erase_sublist) fun x hx hk => ?_
          obtain ⟨hne,hx⟩ := h.nodup.mem_erase_iff.mp hx
          exact hne (Option.some.inj ((h.get_iff.mpr ⟨hx,hk⟩).symm.trans he))
    | set key resp ttl now =>
      have hs := h.set_order body key resp ttl now
      simp only [run,Op.apply,uses]
      split_ifs at hs ⊢ with ha
      · rwa [hs]
      · obtain ⟨k,hk,-⟩ := hs
        rw [hk]
        exact pairwise_older_push (e := ⟨resp,now + ttl,key,body resp⟩)
          (ih.sublist ((drop_sublist _ _).trans filter_sublist))
          fun x hx => by simpa using (mem_filter.mp (mem_of_mem_drop hx)).2

theorem cache_keeps_the_recently_used (body : R → Nat) (maxSize : Int) (log : List (Op R)) :
    let c := run body maxSize log
    (Iterates c.entries (c.order.map fun e => (e.key,e)) ∧ c.order.length ≤ limit maxSize ∧
      c.bytes = (c.order.map fun e => (e.size : Int)).sum ∧ c.bytes ≤ maxBytes) ∧
    (∀ key now resp, (c.get key now).1 = some resp →
      ∃ e, latest body log key = some e ∧ e.response = resp ∧ now ≤ e.expiry) ∧
    ∀ key resp ttl now, ∀ e ∈ c.order, e.key ≠ key → e ∉ (c.set body key resp ttl now).order →
      ∀ x ∈ c.order, x.key ≠ key → Older (uses body maxSize log) x e →
        x ∉ (c.set body key resp ttl now).order := by
  intro c
  have h : Sound body maxSize log c := sound_run body maxSize log
  refine ⟨⟨h.same,h.count,h.bytes,h.fits⟩,fun key now resp hg => ?_,?_⟩
  · obtain hn | ⟨e,-,he,hx,hr⟩ := h.answer key now
    · cases hn.symm.trans hg
    · exact ⟨e,he,Option.some.inj (hr.symm.trans hg),hx⟩
  · intro key resp ttl now e he hek hout x _ hxk ho hx
    have hs := h.set_order body key resp ttl now
    split_ifs at hs
    · exact hout (by rwa [hs])
    · obtain ⟨k,hk,-⟩ := hs
      have hp := (order_by_use body maxSize log).sublist (filter_sublist (p := (·.key != key)))
      rw [← take_append_drop k (filter _ _)] at hp
      rw [hk] at hout hx
      have hel : e ∈ c.order.filter (·.key != key) := mem_filter.mpr ⟨he,bne_iff_ne.mpr hek⟩
      rw [← take_append_drop k (filter _ _)] at hel
      have het := (mem_append.mp hel).resolve_right fun hd => hout (mem_append_left _ hd)
      rcases mem_append.mp hx with hx | hx
      · exact Nat.lt_asymm ho ((pairwise_append.mp hp).2.2 e het x hx)
      · exact hxk (congrArg Entry.key (mem_singleton.mp hx))

end SageGateway.ResponseCache
