import SageGateway.Lib.GoMap
import SageGateway.Lib.GoString
import Mathlib.Data.List.Sort

namespace SageGateway.Drain

open Option GoMap

structure Key where
  serviceID : GoString
  operator : GoString
  rpcType : GoString
  deriving DecidableEq

structure Payload where
  untilAt : Int
  reason : GoString
  deriving DecidableEq

structure Entry extends Payload where
  key : Key
  deriving DecidableEq

structure Codec where
  toLower : GoString → GoString
  marshals : Payload → Bool

def allRPCTypes : GoString := "all".toList

def lowered (C : Codec) (k : Key) : Key := { k with operator := C.toLower k.operator }

def Entry.lowered (C : Codec) (e : Entry) : Entry := { e with key := Drain.lowered C e.key }

def redisField (C : Codec) (k : Key) : GoString :=
  k.serviceID ++ [':'] ++ C.toLower k.operator ++ [':'] ++
    if k.rpcType = [] then allRPCTypes else k.rpcType

def parseRedisField (field : GoString) : Option Key :=
  match GoString.split ':' field with
  | [service,operator,rpc] =>
      if service = [] ∨ operator = [] ∨ rpc = [] then none
      else some ⟨service,operator,if rpc = allRPCTypes then [] else rpc⟩
  | _ => none

structure MemoryStore where
  entries : GoMap Key Entry
  setAt : GoMap Key Int
  releasedAt : GoMap Key Int

namespace MemoryStore

def new : MemoryStore := ⟨∅,∅,∅⟩

def release (C : Codec) (now : Int) (s : MemoryStore) (k : Key) : MemoryStore where
  entries := s.entries.del (lowered C k)
  setAt := s.setAt.del (lowered C k)
  releasedAt := s.releasedAt.put (lowered C k) now

def set (C : Codec) (now : Int) (s : MemoryStore) (e : Entry) : MemoryStore :=
  if now < e.untilAt then
    { entries := s.entries.put (lowered C e.key) (e.lowered C)
      setAt := s.setAt.put (lowered C e.key) now
      releasedAt := s.releasedAt.del (lowered C e.key) }
  else s.release C now e.key

def liveAt (now : Int) (s : MemoryStore) (k : Key) : Bool :=
  (s.entries.get k).any fun e => now < e.untilAt

def drained (now : Int) (s : MemoryStore) (serviceID operator rpcType : GoString) : Bool :=
  s.liveAt now ⟨serviceID,operator,rpcType⟩ || s.liveAt now ⟨serviceID,operator,[]⟩

def cmpEntry (a b : Entry) : Prop :=
  a.key.operator < b.key.operator ∨
    (a.key.operator = b.key.operator ∧ ¬b.key.rpcType < a.key.rpcType)

instance : DecidableRel cmpEntry := fun _ _ => inferInstanceAs (Decidable (_ ∨ _))

def active (now : Int) (s : MemoryStore) (serviceID : GoString) : List Entry :=
  ((s.entries.toList.map Prod.snd).filter
    fun e => e.key.serviceID = serviceID ∧ now < e.untilAt).insertionSort cmpEntry

def dropReleased (since : Int) (releasedAt : GoMap Key Int) (next : GoMap Key Entry) :
    GoMap Key Entry :=
  releasedAt.toList.foldl (fun m r => if since < r.2 then m.del r.1 else m) next

def carry (now since : Int) (entries next : GoMap Key Entry) (k : Key) (at' : Int) :
    GoMap Key Entry :=
  if since < at' then
    match entries.get k with
    | some e => if now < e.untilAt ∧ next.has k = false then next.put k e else next
    | none => next
  else next

def carryOver (now since : Int) (s : MemoryStore) (next : GoMap Key Entry) : GoMap Key Entry :=
  s.setAt.toList.foldl (fun m r => carry now since s.entries m r.1 r.2) next

def replaceAll (now : Int) (s : MemoryStore) (next : GoMap Key Entry) (since : Int) :
    MemoryStore :=
  let next' := s.carryOver now since (dropReleased since s.releasedAt next)
  { entries := next'
    setAt := s.setAt.filter fun k _ => next'.has k
    releasedAt := ∅ }

def replaceAt (now since : Int) (releasedAt setAt : Option Int) (entry next : Option Entry) :
    Option Entry :=
  let next' := if releasedAt.any fun t => since < t then none else next
  next'.or (if setAt.any fun t => since < t then entry.filter fun e => now < e.untilAt else none)

def late (since : Int) (k : Key) (rows : List (Key × Int)) : Bool :=
  rows.any fun r => r.1 = k ∧ since < r.2

theorem late_cons_pos {since : Int} {k : Key} {r : Key × Int} (h : r.1 = k ∧ since < r.2)
    (rows : List (Key × Int)) : late since k (r :: rows) = true := by
  simp [late,h]

theorem late_cons_neg {since : Int} {k : Key} {r : Key × Int} (h : ¬(r.1 = k ∧ since < r.2))
    (rows : List (Key × Int)) : late since k (r :: rows) = late since k rows := by
  simp [late,h]

theorem late_toList (since : Int) (k : Key) (m : GoMap Key Int) :
    late since k m.toList = (m.get k).any fun t => since < t := by
  have hif : late since k m.toList = true ↔ (m.get k).any (fun t => since < t) = true := by
    simp only [late,List.any_eq_true,decide_eq_true_eq,any_eq_true]
    constructor
    · rintro ⟨⟨j,t⟩,hm,rfl,hl⟩
      exact ⟨t,((iterates_toList m).mem_iff j t).mp hm,hl⟩
    · rintro ⟨t,ht,hl⟩
      exact ⟨(k,t),((iterates_toList m).mem_iff k t).mpr ht,rfl,hl⟩
  exact Bool.eq_iff_iff.mpr hif

theorem get_dropReleased (since : Int) (releasedAt : GoMap Key Int) (next : GoMap Key Entry)
    (k : Key) :
    (dropReleased since releasedAt next).get k =
      if (releasedAt.get k).any fun t => since < t then none else next.get k := by
  rw [← late_toList,dropReleased]
  generalize releasedAt.toList = rows
  induction rows generalizing next with
  | nil => rfl
  | cons r rows ih =>
    rw [List.foldl_cons,ih]
    by_cases hr : r.1 = k ∧ since < r.2
    · rw [late_cons_pos hr,if_pos hr.2,hr.1,get_del_self,if_pos rfl,ite_self]
    · rw [late_cons_neg hr]
      split_ifs with hre hl
      · rfl
      · exact get_del_ne _ fun hk => hr ⟨hk.symm,hl⟩
      · rfl

theorem get_carry (now since : Int) (entries next : GoMap Key Entry) (j k : Key) (t : Int) :
    (carry now since entries next j t).get k = (next.get k).or
      (if j = k ∧ since < t then (entries.get k).filter fun e => now < e.untilAt else none) := by
  unfold carry
  by_cases hl : since < t
  · by_cases hk : j = k
    · subst hk
      cases hg : entries.get j with
      | none => simp [hl]
      | some e =>
        cases hn : next.get j with
        | none => by_cases hli : now < e.untilAt <;>
            simp [hl,hli,has,hn,Option.filter]
        | some e' => simp [hl,has,hn]
    · have hne := get_put_ne next (k := j) (j := k)
      cases entries.get j with
      | none => simp [hk]
      | some e =>
        simp [hl,hk]
        split_ifs
        · exact hne e (Ne.symm hk)
        · rfl
  · simp [hl]

theorem get_carryOver (now since : Int) (s : MemoryStore) (next : GoMap Key Entry) (k : Key) :
    (s.carryOver now since next).get k = (next.get k).or
      (if (s.setAt.get k).any fun t => since < t then
        (s.entries.get k).filter fun e => now < e.untilAt else none) := by
  rw [← late_toList,carryOver]
  generalize s.setAt.toList = rows
  induction rows generalizing next with
  | nil => simp [late]
  | cons r rows ih =>
    rw [List.foldl_cons,ih,get_carry,Option.or_assoc]
    congr 1
    by_cases hr : r.1 = k ∧ since < r.2
    · rw [late_cons_pos hr,if_pos rfl]
      split_ifs
      · exact Option.or_self
      · exact or_none
    · rw [if_neg hr,late_cons_neg hr,none_or]

theorem get_replaceAll (now since : Int) (s : MemoryStore) (next : GoMap Key Entry) (k : Key) :
    (s.replaceAll now next since).entries.get k =
      replaceAt now since (s.releasedAt.get k) (s.setAt.get k) (s.entries.get k) (next.get k) := by
  simp [replaceAll,replaceAt,get_carryOver,get_dropReleased]

end MemoryStore

end SageGateway.Drain
