import SageGateway.Lib.Json.Value

namespace Json

open List Option

theorem opened_of_ne {c close : UInt8} (hs : isSpace c = false) (hc : c ≠ close) (v : Value)
    (more : Bytes → Option (Value × Bytes)) (cs : Bytes) :
    opened close v more (c :: cs) = more (c :: cs) := by
  rw [opened,skip_of_not_space hs]
  exact if_neg hc

theorem opened_some {close : UInt8} {v w : Value} {more : Bytes → Option (Value × Bytes)}
    {bs rest : Bytes} (h : opened close v more bs = some (w,rest)) :
    skip bs = close :: rest ∧ w = v ∨
      ∃ c cs, skip bs = c :: cs ∧ c ≠ close ∧ more (c :: cs) = some (w,rest) := by
  unfold opened at h
  split at h
  · cases h
  · next c cs hs =>
    split at h
    · next hc =>
      cases h
      exact .inl ⟨hc ▸ hs,rfl⟩
    · next hc => exact .inr ⟨c,cs,hs,hc,h⟩

section Closing

variable {α : Type} {close : UInt8} {x : α} {more : Bytes → Option (List α × Bytes)}
  {bs rest : Bytes} {l : List α}

theorem closing_comma (close : UInt8) (x : α) (more : Bytes → Option (List α × Bytes))
    (cs : Bytes) :
    closing close x more (44 :: cs) = (more cs).map fun r => (x :: r.1,r.2) := by
  rw [closing]
  exact if_pos rfl

theorem closing_close (hs : isSpace close = false) (hc : close ≠ 44) (x : α)
    (more : Bytes → Option (List α × Bytes)) (rest : Bytes) :
    closing close x more (close :: rest) = some ([x],rest) := by
  rw [closing,skip_of_not_space hs]
  simp [if_neg hc]

theorem closing_some (h : closing close x more bs = some (l,rest)) :
    (∃ cs l', skip bs = 44 :: cs ∧ more cs = some (l',rest) ∧ l = x :: l') ∨
      skip bs = close :: rest ∧ close ≠ 44 ∧ l = [x] := by
  unfold closing at h
  split at h
  · cases h
  · next c cs hs =>
    split at h
    · next hc =>
      obtain ⟨⟨l',r⟩,hm,he⟩ := map_eq_some_iff.mp h
      cases he
      exact .inl ⟨cs,l',hc ▸ hs,hm,rfl⟩
    · next hc =>
      split at h
      · next hcl =>
        cases h
        subst hcl
        exact .inr ⟨hs,hc,rfl⟩
      · cases h

theorem closing_again {more' : Bytes → Option (List α × Bytes)}
    (h : closing close x more bs = some (l,rest))
    (hmo : ∀ cs l', cs.length < bs.length → more cs = some (l',rest) →
      more' cs = some (l',rest)) : closing close x more' bs = some (l,rest) := by
  have hl := length_skip_le bs
  rcases closing_some h with ⟨cs,l',hs,hm,rfl⟩ | ⟨hs,hne,rfl⟩
  · rw [hs] at hl
    rw [closing,hs]
    simp only [if_true]
    rw [hmo cs l' hl hm]
    rfl
  · rw [closing,hs]
    simp [if_neg hne]

end Closing

theorem length_of_skip {bs cs : Bytes} {c : UInt8} (h : skip bs = c :: cs) :
    cs.length < bs.length := by
  have := length_skip_le bs
  rwa [h] at this

theorem length_key {bs rest : Bytes} {k : Key} (h : key bs = some (k,rest)) :
    rest.length < bs.length := by
  unfold key at h
  split at h
  · cases h
  · next c cs hsk =>
    split at h
    · obtain ⟨⟨s,r⟩,hs,hc⟩ := bind_eq_some_iff.mp h
      have hr := length_string hs
      have hcs := length_of_skip hsk
      unfold colon at hc
      split at hc
      · cases hc
      · next d ds hd =>
        have hds := length_of_skip hd
        split at hc
        · cases hc
          dsimp only at hds
          omega
        · cases hc
    · cases h

theorem literal_some {word bs rest : Bytes} {v w : Value} (hne : word ≠ [])
    (h : literal word v bs = some (w,rest)) : w = v ∧ rest.length < bs.length := by
  unfold literal at h
  split at h
  · next hp =>
    cases h
    have hle := ( isPrefixOf_iff_prefix.mp hp).length_le
    have hpo := length_pos_of_ne_nil hne
    refine ⟨rfl,?_⟩
    rw [length_drop]
    omega
  · cases h

theorem scalar_some {bs rest : Bytes} {v : Value} (h : scalar bs = some (v,rest)) :
    v.Canonical ∧ rest.length < bs.length := by
  cases bs with
  | nil => cases h
  | cons c cs =>
    rw [scalar] at h
    split at h
    · obtain ⟨⟨s,r⟩,hs,he⟩ := map_eq_some_iff.mp h
      cases he
      exact ⟨trivial,Nat.lt_succ_of_lt (length_string hs)⟩
    split at h
    · obtain ⟨rfl,hl⟩ := literal_some (by decide) h
      exact ⟨trivial,hl⟩
    split at h
    · obtain ⟨rfl,hl⟩ := literal_some (by decide) h
      exact ⟨trivial,hl⟩
    split at h
    · obtain ⟨rfl,hl⟩ := literal_some (by decide) h
      exact ⟨trivial,hl⟩
    · obtain ⟨⟨lit,r⟩,hn,he⟩ := map_eq_some_iff.mp h
      cases he
      exact number_valid hn

def Decodes {β : Type} (run : Nat → Bytes → Option (β × Bytes)) (extra : Nat)
    (Good : β → Prop) (fuel : Nat) : Prop :=
  ∀ bs x rest, run fuel bs = some (x,rest) →
    Good x ∧ rest.length < bs.length ∧
      ∀ enough, 2 * bs.length + extra ≤ enough → run enough bs = some (x,rest)

theorem membersCanonical_iff {ms : List (Key × Value)} :
    MembersCanonical ms ↔ ∀ p ∈ ms, p.2.Canonical := by
  induction ms with
  | nil => simp [MembersCanonical]
  | cons p ms ih => simp [MembersCanonical,ih]

theorem ofMembers_canonical {ms : List (Key × Value)} (h : MembersCanonical ms) :
    (Value.object (ofMembers ms)).Canonical := by
  have := foldl_put (P := Value.Canonical) (m := []) ⟨List.Pairwise.nil,forall_mem_nil _⟩
    (membersCanonical_iff.mp h)
  exact ⟨this.1,membersCanonical_iff.mpr this.2⟩

section Combine

variable {β γ : Type} {run : Nat → Bytes → Option (β × Bytes)} {extra fuel : Nat}
  {Good : β → Prop}

theorem Decodes.map {Fine : γ → Prop} {f : β → γ} (h : Decodes run extra Good fuel)
    (hf : ∀ x, Good x → Fine (f x)) :
    Decodes (fun n bs => (run n bs).map fun r => (f r.1,r.2)) extra Fine fuel := by
  intro bs x rest hx
  obtain ⟨⟨y,r⟩,hy,heq⟩ := map_eq_some_iff.mp hx
  cases heq
  obtain ⟨hg,hl,ha⟩ := h _ _ _ hy
  exact ⟨hf y hg,hl,fun n hn => map_eq_some_iff.mpr ⟨_,ha n hn,rfl⟩⟩

theorem Decodes.opened {run : Nat → Bytes → Option (Value × Bytes)} {Good : Value → Prop}
    (h : Decodes run extra Good fuel) (close : UInt8) {v : Value} (hv : Good v) :
    Decodes (fun n bs => Json.opened close v (run n) bs) extra Good fuel := by
  intro bs w rest hw
  rcases opened_some hw with ⟨hs,rfl⟩ | ⟨c,cs,hs,hc,hm⟩
  · refine ⟨hv,length_of_skip hs,fun n _ => ?_⟩
    dsimp only
    rw [Json.opened,hs]
    exact if_pos rfl
  · obtain ⟨hg,hl,ha⟩ := h _ _ _ hm
    have hle : (c :: cs).length ≤ bs.length := hs ▸ length_skip_le bs
    refine ⟨hg,Nat.lt_of_lt_of_le hl hle,fun n hn => ?_⟩
    dsimp only
    rw [Json.opened,hs]
    simpa [if_neg hc] using ha n (by omega)

end Combine

variable {fuel : Nat}

theorem value_decodes (he : Decodes elements 1 AllCanonical fuel)
    (hm : Decodes members 1 MembersCanonical fuel) :
    Decodes value 0 Value.Canonical (fuel + 1) := by
  intro bs v rest h
  rw [value] at h
  split at h
  · cases h
  next c cs hs =>
  have hcs := length_of_skip hs
  have hf : ∀ enough, 2 * bs.length + 0 ≤ enough →
      ∃ g, enough = g + 1 ∧ 2 * cs.length + 1 ≤ g :=
    fun enough hle => ⟨enough - 1,by omega,by omega⟩
  have ho := (hm.map fun _ => ofMembers_canonical).opened 125
    (v := .object []) ⟨List.Pairwise.nil,trivial⟩
  have hli : Decodes _ 1 Value.Canonical fuel := he.map (f := Value.array) fun _ hvs => hvs
  have har := hli.opened 93 (v := .array []) trivial
  split at h
  · next hc =>
    obtain ⟨hgo,hl,ha⟩ := ho _ _ _ h
    refine ⟨hgo,Nat.lt_trans hl hcs,fun enough hle => ?_⟩
    obtain ⟨g,rfl,hg⟩ := hf enough hle
    rw [value,hs]
    simpa [if_pos hc] using ha g hg
  · next hc =>
    split at h
    · next hb =>
      obtain ⟨hgo,hl,ha⟩ := har _ _ _ h
      refine ⟨hgo,Nat.lt_trans hl hcs,fun enough hle => ?_⟩
      obtain ⟨g,rfl,hg⟩ := hf enough hle
      rw [value,hs]
      simpa [if_neg hc,if_pos hb] using ha g hg
    · next hb =>
      obtain ⟨hgo,hl⟩ := scalar_some h
      refine ⟨hgo,Nat.lt_of_lt_of_le hl (hs ▸ length_skip_le bs),fun enough hle => ?_⟩
      obtain ⟨g,rfl,-⟩ := hf enough hle
      rw [value,hs]
      simpa [if_neg hc,if_neg hb] using h

theorem elements_decodes (hv : Decodes value 0 Value.Canonical fuel)
    (he : Decodes elements 1 AllCanonical fuel) :
    Decodes elements 1 AllCanonical (fuel + 1) := by
  intro bs vs rest h
  obtain ⟨⟨v,r⟩,hva,hc⟩ := bind_eq_some_iff.mp h
  obtain ⟨hgo,hln,ha⟩ := hv _ _ _ hva
  have hr : AllCanonical vs ∧ rest.length < r.length := by
    rcases closing_some hc with ⟨cs,l',hs,hm,rfl⟩ | ⟨hs,-,rfl⟩
    · obtain ⟨hg,hl,-⟩ := he _ _ _ hm
      exact ⟨⟨hgo,hg⟩,Nat.lt_trans hl (length_of_skip hs)⟩
    · exact ⟨⟨hgo,trivial⟩,length_of_skip hs⟩
  refine ⟨hr.1,Nat.lt_trans hr.2 hln,?_⟩
  intro enough hle
  obtain ⟨g,rfl⟩ : ∃ g, enough = g + 1 := ⟨enough - 1,by omega⟩
  rw [elements,ha g (by omega)]
  refine closing_again hc fun cs l' hcs hm => ?_
  dsimp only at hcs
  exact (he _ _ _ hm).2.2 g (by omega)

theorem members_decodes (hv : Decodes value 0 Value.Canonical fuel)
    (hm : Decodes members 1 MembersCanonical fuel) :
    Decodes members 1 MembersCanonical (fuel + 1) := by
  intro bs ms rest h
  obtain ⟨⟨k,b⟩,hk,h⟩ := bind_eq_some_iff.mp h
  obtain ⟨⟨v,r⟩,hva,hc⟩ := bind_eq_some_iff.mp h
  obtain ⟨hgo,hln,ha⟩ := hv _ _ _ hva
  have hb := length_key hk
  dsimp only at hln ha
  have hr : MembersCanonical ms ∧ rest.length < r.length := by
    rcases closing_some hc with ⟨cs,l',hs,hmo,rfl⟩ | ⟨hs,-,rfl⟩
    · obtain ⟨hg,hl,-⟩ := hm _ _ _ hmo
      exact ⟨⟨hgo,hg⟩,Nat.lt_trans hl (length_of_skip hs)⟩
    · exact ⟨⟨hgo,trivial⟩,length_of_skip hs⟩
  refine ⟨hr.1,by omega,?_⟩
  intro enough hle
  obtain ⟨g,rfl⟩ : ∃ g, enough = g + 1 := ⟨enough - 1,by omega⟩
  rw [members,hk]
  simp
  rw [ha g (by omega)]
  refine closing_again hc fun cs l' hcs hmo => ?_
  dsimp only at hcs
  exact (hm _ _ _ hmo).2.2 g (by omega)

theorem decodes (fuel : Nat) :
    Decodes value 0 Value.Canonical fuel ∧ Decodes elements 1 AllCanonical fuel ∧
      Decodes members 1 MembersCanonical fuel := by
  induction fuel with
  | zero =>
    refine ⟨?_,?_,?_⟩
    · nofun
    · nofun
    · nofun
  | succ fuel ih =>
    obtain ⟨hv,he,hm⟩ := ih
    exact ⟨value_decodes he hm,elements_decodes hv he,members_decodes hv hm⟩

def Reads (bs : Bytes) (v : Value) (rest : Bytes) : Prop := ∃ fuel, value fuel bs = some (v,rest)

theorem decode_iff {v : Value} :
    decode bs = some (v,rest) ↔ Reads bs v rest := by
  constructor
  · intro h
    exact ⟨_,h⟩
  · rintro ⟨fuel,h⟩
    exact ((decodes fuel).1 _ _ _ h).2.2 _ le_rfl

theorem Reads.canonical {v : Value} (h : Reads bs v rest) : v.Canonical := by
  obtain ⟨fuel,h⟩ := h
  exact ((decodes fuel).1 _ _ _ h).1

theorem apart_cons {c : UInt8} (h : numberByte c = false) (cs : Bytes) : Apart (c :: cs) := by
  rintro d ⟨⟩
  exact h

theorem value_of_scalar {c : UInt8} (hs : isSpace c = false) (hb : c ≠ 123) (ha : c ≠ 91)
    (fuel : Nat) (cs : Bytes) : value (fuel + 1) (c :: cs) = scalar (c :: cs) := by
  rw [value,skip_of_not_space hs]
  simp [if_neg hb,if_neg ha]

theorem scalar_number {lit : Bytes} (h : ValidNumber lit) (ha : Apart rest) (fuel : Nat) :
    value (fuel + 1) (lit ++ rest) = some (.number lit,rest) := by
  have hn := number_append h ha
  obtain ⟨c,cs,rfl,hc⟩ := h.cons
  have hs : isSpace c = false := by grind [isSpace,isDigit]
  have h123 : c ≠ 123 := by grind [isDigit]
  have h91 : c ≠ 91 := by grind [isDigit]
  have h34 : c ≠ 34 := by grind [isDigit]
  have h116 : c ≠ 116 := by grind [isDigit]
  have h102 : c ≠ 102 := by grind [isDigit]
  have h110 : c ≠ 110 := by grind [isDigit]
  rw [cons_append] at hn ⊢
  rw [value_of_scalar hs h123 h91,scalar,if_neg h34,if_neg h116,if_neg h102,if_neg h110,hn]
  rfl

theorem value_array (fuel : Nat) (bs : Bytes) :
    value (fuel + 1) (91 :: bs) =
      opened 93 (.array []) (fun ds => (elements fuel ds).map fun r => (.array r.1,r.2)) bs := by
  rfl

theorem value_object (fuel : Nat) (bs : Bytes) :
    value (fuel + 1) (123 :: bs) =
      opened 125 (.object [])
        (fun ds => (members fuel ds).map fun r => (.object (ofMembers r.1),r.2)) bs := by
  rfl

end Json
