import SageGateway.Lib.Json

namespace Json

open List

abbrev Key := List Char

def keyLt : Key → Key → Bool
  | _,[] => false
  | [],_ :: _ => true
  | c :: k,d :: l => if c = d then keyLt k l else decide (c.toNat < d.toNat)

theorem keyLt_irrefl (k : Key) : keyLt k k = false := by
  induction k with
  | nil => rfl
  | cons c k ih => rw [keyLt,if_pos rfl,ih]

theorem keyLt_trans {k l m : Key} (hkl : keyLt k l = true) (hlm : keyLt l m = true) :
    keyLt k m = true := by
  induction k generalizing l m with
  | nil =>
    cases l with
    | nil => cases hkl
    | cons d l =>
      cases m with
      | nil => cases hlm
      | cons e m => rfl
  | cons c k ih =>
    cases l with
    | nil => cases hkl
    | cons d l =>
      cases m with
      | nil => cases hlm
      | cons e m => grind [keyLt]

theorem keyLt_of_not {k l : Key} (hne : k ≠ l) (h : keyLt k l = false) : keyLt l k = true := by
  induction k generalizing l with
  | nil =>
    cases l with
    | nil => exact absurd rfl hne
    | cons d l => cases h
  | cons c k ih =>
    cases l with
    | nil => rfl
    | cons d l =>
      rw [keyLt] at h ⊢
      by_cases hcd : c = d
      · subst hcd
        rw [if_pos rfl] at h ⊢
        exact ih (fun e => hne (e ▸ rfl)) h
      · rw [if_neg hcd] at h
        rw [if_neg (Ne.symm hcd)]
        have hv : c.toNat ≠ d.toNat := fun e => hcd (Char.toNat_inj.mp e)
        have hle := of_decide_eq_false h
        exact decide_eq_true (by omega)

section Members

variable {α : Type}

def put : List (Key × α) → Key → α → List (Key × α)
  | [],k,v => [(k,v)]
  | (l,w) :: ms,k,v =>
      if k = l then (k,v) :: ms
      else if keyLt k l then (k,v) :: (l,w) :: ms
      else (l,w) :: put ms k v

def ofMembers (ms : List (Key × α)) : List (Key × α) := ms.foldl (fun m p => put m p.1 p.2) []

def Sorted (ms : List (Key × α)) : Prop := ms.Pairwise fun p q => keyLt p.1 q.1 = true

variable {ms : List (Key × α)}

theorem mem_put {k : Key} {v : α} {p : Key × α} (h : p ∈ put ms k v) :
    p = (k,v) ∨ p ∈ ms := by
  induction ms with
  | nil => exact .inl (mem_singleton.mp h)
  | cons q ms ih =>
    rw [put] at h
    split at h
    · rcases mem_cons.mp h with h | h
      · exact .inl h
      · exact .inr (.tail _ h)
    · split at h
      · rcases mem_cons.mp h with h | h
        · exact .inl h
        · exact .inr h
      · rcases mem_cons.mp h with h | h
        · exact .inr (h ▸ (.head _))
        · exact (ih h).imp_right (mem_cons_of_mem _)

theorem Sorted.put (h : Sorted ms) (k : Key) (v : α) :
    Sorted (put ms k v) := by
  induction ms with
  | nil => exact pairwise_singleton _ _
  | cons q ms ih =>
    obtain ⟨hq,hs⟩ := pairwise_cons.mp h
    rw [Json.put]
    split
    · next hk =>
      subst hk
      exact pairwise_cons.mpr ⟨hq,hs⟩
    · next hk =>
      split
      · next hlt =>
        refine pairwise_cons.mpr ⟨?_,h⟩
        intro p hp
        rcases mem_cons.mp hp with rfl | hp
        · exact hlt
        · exact keyLt_trans hlt (hq p hp)
      · next hlt =>
        refine pairwise_cons.mpr ⟨?_,ih hs⟩
        intro p hp
        rcases mem_put hp with rfl | hp
        · exact keyLt_of_not hk (Bool.eq_false_iff.mpr hlt)
        · exact hq p hp

theorem foldl_put {P : α → Prop} {m : List (Key × α)} (hm : Sorted m ∧ ∀ p ∈ m, P p.2)
    (h : ∀ p ∈ ms, P p.2) :
    Sorted (ms.foldl (fun m p => put m p.1 p.2) m) ∧
      ∀ p ∈ ms.foldl (fun m p => put m p.1 p.2) m, P p.2 := by
  induction ms generalizing m with
  | nil => exact hm
  | cons q ms ih =>
    refine ih ⟨hm.1.put q.1 q.2,?_⟩ fun p hp => h p (.tail _ hp)
    intro p hp
    rcases mem_put hp with rfl | hp
    · exact h q (.head _)
    · exact hm.2 p hp

theorem put_last {k : Key} {v : α}
    (h : ∀ p ∈ ms, keyLt p.1 k = true) : put ms k v = ms ++ [(k,v)] := by
  induction ms with
  | nil => rfl
  | cons q ms ih =>
    have hq := h q (.head _)
    have hne : k ≠ q.1 := by
      rintro rfl
      exact absurd hq (by rw [keyLt_irrefl]; decide)
    have hlt : keyLt k q.1 = false := by
      by_contra hc
      have := keyLt_trans hq ((Bool.not_eq_false _).mp hc)
      rw [keyLt_irrefl] at this
      cases this
    rw [put,if_neg hne,hlt]
    simp
    rw [ih fun p hp => h p (mem_cons_of_mem _ hp)]

theorem foldl_put_sorted {m : List (Key × α)} (h : Sorted (m ++ ms)) :
    ms.foldl (fun m p => put m p.1 p.2) m = m ++ ms := by
  induction ms generalizing m with
  | nil => exact (append_nil m).symm
  | cons q ms ih =>
    have hl : put m q.1 q.2 = m ++ [q] :=
      put_last fun p hp => (pairwise_append.mp h).2.2 p hp q (.head _)
    rw [foldl_cons,hl,ih (by rw [append_assoc]; exact h),append_assoc]
    rfl

def delete (ms : List (Key × α)) (k : Key) : List (Key × α) := ms.filter fun p => p.1 ≠ k

theorem ofMembers_sorted (h : Sorted ms) : ofMembers ms = ms :=
  foldl_put_sorted h

end Members

inductive Value where
  | null
  | bool (b : Bool)
  | number (lit : Bytes)
  | string (s : List Char)
  | array (vs : List Value)
  | object (ms : List (Key × Value))

def literal (word : Bytes) (v : Value) (bs : Bytes) : Option (Value × Bytes) :=
  if word.isPrefixOf bs then some (v,bs.drop word.length) else none

def scalar : Bytes → Option (Value × Bytes)
  | [] => none
  | c :: cs =>
      if c = 34 then (string cs).map fun r => (.string r.1,r.2)
      else if c = 116 then literal (ascii "true") (.bool true) (c :: cs)
      else if c = 102 then literal (ascii "false") (.bool false) (c :: cs)
      else if c = 110 then literal (ascii "null") .null (c :: cs)
      else (number (c :: cs)).map fun r => (.number r.1,r.2)

def opened (close : UInt8) (empty : Value) (more : Bytes → Option (Value × Bytes))
    (bs : Bytes) : Option (Value × Bytes) :=
  match skip bs with
  | [] => none
  | c :: cs => if c = close then some (empty,cs) else more (c :: cs)

def closing {α : Type} (close : UInt8) (x : α) (more : Bytes → Option (List α × Bytes))
    (bs : Bytes) : Option (List α × Bytes) :=
  match skip bs with
  | [] => none
  | c :: cs =>
      if c = 44 then (more cs).map fun r => (x :: r.1,r.2)
      else if c = close then some ([x],cs)
      else none

def colon (k : Key) (bs : Bytes) : Option (Key × Bytes) :=
  match skip bs with
  | [] => none
  | c :: cs => if c = 58 then some (k,cs) else none

def key (bs : Bytes) : Option (Key × Bytes) :=
  match skip bs with
  | [] => none
  | c :: cs => if c = 34 then (string cs).bind fun r => colon r.1 r.2 else none

mutual

def value : Nat → Bytes → Option (Value × Bytes)
  | 0,_ => none
  | fuel + 1,bs =>
      match skip bs with
      | [] => none
      | c :: cs =>
          if c = 123 then
            opened 125 (.object [])
              (fun ds => (members fuel ds).map fun r => (.object (ofMembers r.1),r.2)) cs
          else if c = 91 then
            opened 93 (.array []) (fun ds => (elements fuel ds).map fun r => (.array r.1,r.2)) cs
          else scalar (c :: cs)

def elements : Nat → Bytes → Option (List Value × Bytes)
  | 0,_ => none
  | fuel + 1,bs => (value fuel bs).bind fun r => closing 93 r.1 (elements fuel) r.2

def members : Nat → Bytes → Option (List (Key × Value) × Bytes)
  | 0,_ => none
  | fuel + 1,bs =>
      (key bs).bind fun k => (value fuel k.2).bind fun r =>
        closing 125 (k.1,r.1) (members fuel) r.2

end

def decode (bs : Bytes) : Option (Value × Bytes) := value (2 * bs.length) bs

def more (rest : Bytes) : Bool :=
  match skip rest with
  | [] => false
  | c :: _ => c != 93 && c != 125

mutual

def encode : Value → Bytes
  | .null => ascii "null"
  | .bool true => ascii "true"
  | .bool false => ascii "false"
  | .number lit => lit
  | .string s => quote s
  | .array [] => [91,93]
  | .array (v :: vs) => 91 :: (encode v ++ (encodeElements vs ++ [93]))
  | .object [] => [123,125]
  | .object ((k,v) :: ms) => 123 :: (quote k ++ 58 :: (encode v ++ (encodeMembers ms ++ [125])))

def encodeElements : List Value → Bytes
  | [] => []
  | v :: vs => 44 :: (encode v ++ encodeElements vs)

def encodeMembers : List (Key × Value) → Bytes
  | [] => []
  | (k,v) :: ms => 44 :: (quote k ++ 58 :: (encode v ++ encodeMembers ms))

end

mutual

def Value.Canonical : Value → Prop
  | .null => True
  | .bool _ => True
  | .number lit => ValidNumber lit
  | .string _ => True
  | .array vs => AllCanonical vs
  | .object ms => Sorted ms ∧ MembersCanonical ms

def AllCanonical : List Value → Prop
  | [] => True
  | v :: vs => v.Canonical ∧ AllCanonical vs

def MembersCanonical : List (Key × Value) → Prop
  | [] => True
  | (_,v) :: ms => v.Canonical ∧ MembersCanonical ms

end

end Json
