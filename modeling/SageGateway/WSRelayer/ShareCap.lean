import Mathlib.Algebra.Order.BigOperators.Group.List
import Mathlib.Algebra.Order.Field.Rat
import Mathlib.Data.List.Dedup
import SageGateway.Domain

namespace SageGateway

def wsShareCap : ℚ := 1 / 2

-- An open bridge of the pod; its rate is the frames a second over its life.
structure WSLive where
  id : Nat
  service : GoString
  current : Option EndpointAddr
  rate : ℚ

structure ShareView where
  enabled : Bool
  party : EndpointAddr → GoString
  vouched : EndpointAddr → Bool
  allStale : Option (List EndpointAddr → Bool)
  service : GoString
  live : List WSLive
  self : Option Nat

namespace ShareView

variable (v : ShareView) (candidates : List EndpointAddr)

def vouchedOf (p : GoString) : List EndpointAddr :=
  candidates.filter fun ep => v.vouched ep && v.party ep = p

def byParty : List GoString :=
  ((candidates.filter v.vouched).map v.party).dedup.filter fun p =>
    !(v.allStale.any fun stale => stale (v.vouchedOf candidates p))

def bridges : List WSLive := v.live.filter fun l => l.service = v.service

def isSelf (l : WSLive) : Bool := v.self = some l.id

def total : ℚ := (v.bridges.map WSLive.rate).sum

def own : ℚ := ((v.bridges.filter v.isSelf).map WSLive.rate).sum

def load (p : GoString) : ℚ :=
  ((v.bridges.filter fun l => !v.isSelf l && (l.current.map v.party = some p)).map WSLive.rate).sum

def isOver (p : GoString) : Bool := wsShareCap < (v.load p + v.own) / v.total

def overCap : List GoString := (v.byParty candidates).filter v.isOver

def capShare : List EndpointAddr :=
  if v.enabled = false then candidates
  else if (v.byParty candidates).length < 2 then candidates
  else if v.total = 0 then candidates
  else if (v.overCap candidates).length = (v.byParty candidates).length then candidates
  else if v.overCap candidates = [] then candidates
  else candidates.filter fun ep => v.party ep ∉ v.overCap candidates

theorem capShare_cases : v.capShare candidates = candidates ∨
    v.total ≠ 0 ∧ (v.overCap candidates).length ≠ (v.byParty candidates).length ∧
      v.capShare candidates = candidates.filter fun ep => v.party ep ∉ v.overCap candidates := by
  unfold capShare
  split_ifs with ho hf ht ha hn
  · exact .inl rfl
  · exact .inl rfl
  · exact .inl rfl
  · exact .inl rfl
  · exact .inl rfl
  · exact .inr ⟨ht,ha,rfl⟩

variable {v candidates}

theorem party_of_byParty {p : GoString} (h : p ∈ v.byParty candidates) :
    ∃ ep ∈ candidates, v.party ep = p := by
  obtain ⟨ep,hep,hp⟩ := List.mem_map.mp (List.mem_dedup.mp (List.mem_filter.mp h).1)
  exact ⟨ep,(List.mem_filter.mp hep).1,hp⟩

theorem capShare_ne_nil (h : candidates ≠ []) : v.capShare candidates ≠ [] := by
  rcases capShare_cases v candidates with heq | ⟨-,ha,heq⟩
  · rwa [heq]
  · have hu : ∃ p ∈ v.byParty candidates, v.isOver p = false := by
      by_contra hno
      push Not at hno
      refine ha (congrArg _ (List.filter_eq_self.mpr fun p hp => ?_))
      exact Bool.not_eq_false _ ▸ hno p hp
    obtain ⟨p,hp,hc⟩ := hu
    obtain ⟨ep,hep,rfl⟩ := party_of_byParty hp
    have hk : v.party ep ∉ v.overCap candidates := by
      intro ho
      cases ((List.mem_filter.mp ho).2).symm.trans hc
    rw [heq]
    exact List.ne_nil_of_mem (List.mem_filter.mpr ⟨hep,decide_eq_true hk⟩)

theorem total_nonneg (h : ∀ l ∈ v.live, 0 ≤ l.rate) : 0 ≤ v.total := by
  refine List.sum_nonneg fun x hx => ?_
  obtain ⟨l,hl,rfl⟩ := List.mem_map.mp hx
  exact h l (List.mem_filter.mp hl).1

def Deciding (v : ShareView) (candidates : List EndpointAddr) (p : GoString) : Prop :=
  (∃ ep ∈ candidates, v.vouched ep = true ∧ v.party ep = p) ∧
    ∀ stale, v.allStale = some stale → stale (v.vouchedOf candidates p) = false

def OverCap (v : ShareView) (p : GoString) : Prop := wsShareCap * v.total < v.load p + v.own

theorem mem_byParty_iff {p : GoString} :
    p ∈ v.byParty candidates ↔ v.Deciding candidates p := by
  cases hs : v.allStale <;> simp [byParty,Deciding,List.mem_dedup,and_assoc,hs]

theorem mem_overCap_iff (ht : 0 < v.total) {p : GoString} :
    p ∈ v.overCap candidates ↔ v.Deciding candidates p ∧ v.OverCap p := by
  rw [overCap,List.mem_filter,mem_byParty_iff,isOver,decide_eq_true_iff,lt_div_iff₀ ht]
  rfl

theorem capShare_binds (v : ShareView) (candidates : List EndpointAddr)
    (hrates : ∀ l ∈ v.live, 0 ≤ l.rate) :
    (v.capShare candidates).Sublist candidates ∧
    (candidates ≠ [] → v.capShare candidates ≠ []) ∧
    ((v.capShare candidates).length < candidates.length →
      ((∀ ep ∈ v.capShare candidates, v.load (v.party ep) + v.own ≤ wsShareCap * v.total) ↔
        ∀ ep ∈ candidates, v.OverCap (v.party ep) → v.Deciding candidates (v.party ep))) := by
  refine ⟨?_,capShare_ne_nil,fun hf => ?_⟩
  · rcases capShare_cases v candidates with heq | ⟨-,-,heq⟩
    · rw [heq]
    · rw [heq]
      exact List.filter_sublist
  rcases capShare_cases v candidates with heq | ⟨ht,-,heq⟩
  · rw [heq] at hf
    exact absurd hf (lt_irrefl _)
  have hpo : 0 < v.total := lt_of_le_of_ne (total_nonneg hrates) ht.symm
  have hk : ∀ ep, ep ∈ v.capShare candidates ↔
      ep ∈ candidates ∧ ¬(v.Deciding candidates (v.party ep) ∧ v.OverCap (v.party ep)) := by
    intro ep
    rw [heq,List.mem_filter,decide_eq_true_iff,mem_overCap_iff hpo]
  constructor
  · intro hle ep hep hov
    by_contra hd
    exact absurd (hle ep ((hk ep).mpr ⟨hep,fun h => hd h.1⟩)) (not_le.mpr hov)
  · intro hd ep hep
    obtain ⟨hc,hn⟩ := (hk ep).mp hep
    exact not_lt.mp fun hov => hn ⟨hd ep hc hov,hov⟩

def twoThirds (current vouchedFrom : List String) : ShareView where
  enabled := true
  party := id
  vouched ep := ep ∈ vouchedFrom.map String.toList
  allStale := none
  service := []
  live := (current.zipIdx.map fun c => ⟨c.2,[],some c.1.toList,20⟩) ++ [⟨9,[],none,40⟩]
  self := some 9

theorem heavy_connection_avoids_loaded_party :
    let v := twoThirds ["b","c"] ["a","b"]
    v.capShare ["a".toList,"b".toList] = ["a".toList] ∧
    v.load "a".toList + v.own ≤ wsShareCap * v.total := by
  have hs : (twoThirds ["b","c"] ["a","b"]).capShare ["a".toList,"b".toList] =
      ["a".toList] := by
    decide +kernel
  have hd : ∀ ep ∈ ["a".toList,"b".toList],
      (twoThirds ["b","c"] ["a","b"]).Deciding ["a".toList,"b".toList] ep := fun ep hep =>
    mem_byParty_iff.mp ((by decide +kernel : ∀ ep ∈ ["a".toList,"b".toList],
      ep ∈ (twoThirds ["b","c"] ["a","b"]).byParty ["a".toList,"b".toList]) ep hep)
  refine ⟨hs,?_⟩
  exact ((capShare_binds _ ["a".toList,"b".toList] (by decide +kernel)).2.2
    (by rw [hs]; decide)).mpr (fun ep hep _ => hd ep hep) _
    (by rw [hs]; exact List.mem_singleton_self _)

theorem unvouched_party_over_the_cap_stays :
    let v := twoThirds ["b","c"] ["a","b"]
    v.capShare ["a".toList,"b".toList,"c".toList] = ["a".toList,"c".toList] ∧
    wsShareCap * v.total < v.load "c".toList + v.own := by
  decide +kernel

end ShareView

end SageGateway
