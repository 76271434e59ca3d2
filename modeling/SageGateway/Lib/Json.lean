import Mathlib.Data.List.Basic
import Mathlib.Data.Char

namespace Json

open List Option

abbrev Bytes := List UInt8

def ascii (s : String) : Bytes := s.toList.map fun c => UInt8.ofNat c.toNat

def isSpace (c : UInt8) : Bool := c == 32 || c == 9 || c == 10 || c == 13

def isDigit (c : UInt8) : Bool := 48 ≤ c && c ≤ 57

def skip : Bytes → Bytes
  | [] => []
  | c :: cs => if isSpace c then skip cs else c :: cs

theorem skip_of_not_space {c : UInt8} (h : isSpace c = false) (cs : Bytes) :
    skip (c :: cs) = c :: cs := by
  simp [skip,h]

theorem length_skip_le (bs : Bytes) : (skip bs).length ≤ bs.length := by
  induction bs with
  | nil => exact le_rfl
  | cons c cs ih =>
    rw [skip]
    split
    · exact Nat.le_trans ih (Nat.le_succ _)
    · exact le_rfl

inductive NumState where
  | start | neg | zero | whole | dot | frac | exp | expSign | expDigits
  deriving DecidableEq

namespace NumState

def accepting : NumState → Bool
  | .zero | .whole | .frac | .expDigits => true
  | _ => false

def afterWhole (c : UInt8) : Option NumState :=
  if c = 46 then some .dot else if c = 101 ∨ c = 69 then some .exp else none

def next : NumState → UInt8 → Option NumState
  | .start,c =>
      if c = 45 then some .neg
      else if c = 48 then some .zero
      else if isDigit c then some .whole
      else none
  | .neg,c => if c = 48 then some .zero else if isDigit c then some .whole else none
  | .zero,c => afterWhole c
  | .whole,c => if isDigit c then some .whole else afterWhole c
  | .dot,c => if isDigit c then some .frac else none
  | .frac,c =>
      if isDigit c then some .frac else if c = 101 ∨ c = 69 then some .exp else none
  | .exp,c =>
      if c = 43 ∨ c = 45 then some .expSign else if isDigit c then some .expDigits else none
  | .expSign,c => if isDigit c then some .expDigits else none
  | .expDigits,c => if isDigit c then some .expDigits else none

def scan : NumState → Bytes → Option (Bytes × Bytes)
  | q,[] => if q.accepting then some ([],[]) else none
  | q,c :: cs =>
      match q.next c with
      | some q' => (scan q' cs).map fun r => (c :: r.1,r.2)
      | none => if q.accepting then some ([],c :: cs) else none

end NumState

def numberByte (c : UInt8) : Bool :=
  isDigit c || c == 46 || c == 101 || c == 69 || c == 43 || c == 45

def number (bs : Bytes) : Option (Bytes × Bytes) := NumState.scan .start bs

def ValidNumber (lit : Bytes) : Prop := number lit = some (lit,[])

def Apart (rest : Bytes) : Prop := ∀ c ∈ rest.head?, numberByte c = false

variable {lit rest : Bytes} {q : NumState}

theorem NumState.numberByte_of_next {q' : NumState} {c : UInt8} (h : q.next c = some q') :
    numberByte c = true := by
  cases q <;> grind [NumState.next,NumState.afterWhole,numberByte,isDigit]

theorem NumState.scan_append (ha : Apart rest)
    (h : q.scan lit = some (lit,[])) : q.scan (lit ++ rest) = some (lit,rest) := by
  induction lit generalizing q with
  | nil =>
    have hac : q.accepting = true := by
      by_contra hn
      rw [scan,if_neg hn] at h
      cases h
    cases rest with
    | nil => exact h
    | cons c cs =>
      have hne : q.next c = none := by
        by_contra hn
        obtain ⟨q',hq⟩ := ne_none_iff_exists'.mp hn
        have hb := NumState.numberByte_of_next hq
        cases (ha c rfl).symm.trans hb
      rw [nil_append,scan,hne]
      exact if_pos hac
  | cons c cs ih =>
    rw [cons_append,scan]
    rw [scan] at h
    cases hq : q.next c with
    | none =>
      simp only [hq] at h
      split at h <;> cases h
    | some q' =>
      simp only [hq,map_eq_some_iff] at h ⊢
      obtain ⟨⟨l,r⟩,hs,he⟩ := h
      cases he
      exact ⟨_,ih hs,rfl⟩

theorem NumState.scan_spec {bs : Bytes}
    (h : q.scan bs = some (lit,rest)) :
    bs = lit ++ rest ∧ q.scan lit = some (lit,[]) ∧ ∀ c ∈ lit, numberByte c = true := by
  induction bs generalizing q lit with
  | nil =>
    obtain ⟨ha,heq⟩ := ite_none_right_eq_some.mp h
    cases heq
    exact ⟨rfl,if_pos ha,forall_mem_nil _⟩
  | cons c cs ih =>
    rw [scan] at h
    cases hq : q.next c with
    | none =>
      simp only [hq] at h
      obtain ⟨ha,heq⟩ := ite_none_right_eq_some.mp h
      cases heq
      exact ⟨rfl,if_pos ha,forall_mem_nil _⟩
    | some q' =>
      simp only [hq,map_eq_some_iff] at h
      obtain ⟨⟨l,r⟩,hs,he⟩ := h
      cases he
      obtain ⟨rfl,hsc,hb⟩ := ih hs
      refine ⟨rfl,?_,forall_mem_cons.mpr ⟨numberByte_of_next hq,hb⟩⟩
      simp [scan,hq,hsc]

theorem number_append (h : ValidNumber lit) (ha : Apart rest) :
    number (lit ++ rest) = some (lit,rest) :=
  NumState.scan_append ha h

theorem ValidNumber.cons (h : ValidNumber lit) :
    ∃ c cs, lit = c :: cs ∧ (c = 45 ∨ isDigit c = true) := by
  cases lit with
  | nil => cases h
  | cons c cs =>
    refine ⟨c,cs,rfl,?_⟩
    by_contra hc
    obtain ⟨hm,hd⟩ := not_or.mp hc
    have h48 : c ≠ 48 := fun e => hd (e ▸ rfl)
    have hn : NumState.next .start c = none := by
      simp [NumState.next,if_neg hm,if_neg h48,if_neg hd]
    unfold ValidNumber number at h
    rw [NumState.scan] at h
    simp only [hn] at h
    cases h

theorem number_valid {bs : Bytes} (h : number bs = some (lit,rest)) :
    ValidNumber lit ∧ rest.length < bs.length := by
  obtain ⟨rfl,hv,-⟩ := NumState.scan_spec h
  obtain ⟨c,cs,rfl,-⟩ := ValidNumber.cons hv
  refine ⟨hv,?_⟩
  simp only [length_append,length_cons]
  omega

def hexValue (c : UInt8) : Option Nat :=
  if isDigit c then some (c.toNat - 48)
  else if 97 ≤ c ∧ c ≤ 102 then some (c.toNat - 87)
  else if 65 ≤ c ∧ c ≤ 70 then some (c.toNat - 55)
  else none

inductive StrState where
  | plain
  | escape
  | hex (left : Nat)
  deriving DecidableEq

namespace StrState

def next : StrState → UInt8 → Option StrState
  | .plain,c => if c = 92 then some .escape else if c < 32 then none else some .plain
  | .escape,c =>
      if c = 117 then some (.hex 3)
      else if c ∈ [98,102,110,114,116,92,47,34] then some .plain
      else none
  | .hex 0,c => if (hexValue c).isSome then some .plain else none
  | .hex (n + 1),c => if (hexValue c).isSome then some (.hex n) else none

def scan : StrState → Bytes → Option (Bytes × Bytes)
  | _,[] => none
  | q,c :: cs =>
      if q = .plain ∧ c = 34 then some ([],cs)
      else
        match q.next c with
        | some q' => (scan q' cs).map fun r => (c :: r.1,r.2)
        | none => none

def through : StrState → Bytes → Option StrState
  | q,[] => some q
  | q,c :: cs =>
      if q = .plain ∧ c = 34 then none
      else
        match q.next c with
        | some q' => through q' cs
        | none => none

variable {bs : Bytes} {q q' : StrState}

theorem through_of_next {q₁ : StrState} {c : UInt8} {cs : Bytes} (hc : ¬(q = .plain ∧ c = 34))
    (hq : q.next c = some q₁) : q.through (c :: cs) = q₁.through cs := by
  rw [through,if_neg hc,hq]

theorem through_cons {c : UInt8} {cs : Bytes}
    (h : q.through (c :: cs) = some q') :
    ¬(q = .plain ∧ c = 34) ∧ ∃ q₁, q.next c = some q₁ ∧ q₁.through cs = some q' := by
  obtain ⟨hc,h⟩ := ite_none_left_eq_some.mp h
  cases hq : q.next c with
  | none =>
    simp only [hq] at h
    cases h
  | some q₁ =>
    simp [hq] at h
    exact ⟨hc,q₁,rfl,h⟩

theorem scan_through (h : q.through bs = some q') (rest : Bytes) :
    q.scan (bs ++ rest) = (q'.scan rest).map fun r => (bs ++ r.1,r.2) := by
  induction bs generalizing q with
  | nil =>
    cases h
    simp
  | cons c cs ih =>
    obtain ⟨hc,q₁,hq,h⟩ := through_cons h
    rw [cons_append,scan,if_neg hc,hq]
    dsimp only
    rw [ih h,Option.map_map]
    rfl

theorem through_append (h : q.through bs = some q')
    (rest : Bytes) : q.through (bs ++ rest) = q'.through rest := by
  induction bs generalizing q with
  | nil =>
    cases h
    rfl
  | cons c cs ih =>
    obtain ⟨hc,q₁,hq,h⟩ := through_cons h
    rw [cons_append,through_of_next hc hq,ih h]

theorem through_high (h : ∀ c ∈ bs, 128 ≤ c) :
    StrState.plain.through bs = some .plain := by
  induction bs with
  | nil => rfl
  | cons c cs ih =>
    have hc := h c (.head _)
    have h34 : c ≠ 34 := by grind
    have h92 : c ≠ 92 := by grind
    have h32 : ¬ c < 32 := by grind
    rw [through,if_neg (fun e => h34 e.2)]
    simpa [next,if_neg h92,if_neg h32] using ih fun d hd => h d (.tail _ hd)

theorem scan_eq_append {raw : Bytes}
    (h : q.scan bs = some (raw,rest)) : bs = raw ++ 34 :: rest ∧ q.through raw = some .plain := by
  induction bs generalizing q raw with
  | nil => cases h
  | cons c cs ih =>
    rw [scan] at h
    split at h
    · next hc =>
      obtain ⟨rfl,rfl⟩ := hc
      cases h
      exact ⟨rfl,rfl⟩
    · next hc =>
      cases hq : q.next c with
      | none =>
        simp only [hq] at h
        cases h
      | some q₁ =>
        simp only [hq,map_eq_some_iff] at h
        obtain ⟨⟨l,r⟩,hs,he⟩ := h
        cases he
        obtain ⟨hcs,hr⟩ := ih hs
        exact ⟨congrArg _ hcs,(through_of_next hc hq).trans hr⟩

end StrState

def replacement : Char := Char.ofNat 0xFFFD

def unescape (c : UInt8) : Char :=
  if c = 98 then Char.ofNat 8
  else if c = 102 then Char.ofNat 12
  else if c = 110 then Char.ofNat 10
  else if c = 114 then Char.ofNat 13
  else if c = 116 then Char.ofNat 9
  else Char.ofNat c.toNat

def getu4 : Bytes → Option Nat
  | a :: u :: p :: q :: r :: s :: _ =>
      if a = 92 ∧ u = 117 then
        match hexValue p,hexValue q,hexValue r,hexValue s with
        | some i,some j,some k,some l => some (i * 4096 + j * 256 + k * 16 + l)
        | _,_,_,_ => none
      else none
  | _ => none

def surrogatePair (hi lo : Nat) : Option Char :=
  if 0xD800 ≤ hi ∧ hi < 0xDC00 ∧ 0xDC00 ≤ lo ∧ lo < 0xE000 then
    some (Char.ofNat ((hi - 0xD800) * 1024 + (lo - 0xDC00) + 0x10000))
  else none

def unicodeRune (r : Nat) (rest : Bytes) : Char × Bytes :=
  if 0xD800 ≤ r ∧ r < 0xE000 then
    match (getu4 rest).bind (surrogatePair r) with
    | some ch => (ch,rest.drop 6)
    | none => (replacement,rest)
  else (Char.ofNat r,rest)

def escapedRune : Bytes → Option (Char × Bytes)
  | [] => none
  | e :: es =>
      if e = 117 then (getu4 (92 :: e :: es)).map fun r => unicodeRune r (es.drop 4)
      else some (unescape e,es)

def utf8Rune (c : UInt8) (cs : Bytes) : Char × Bytes :=
  match (c :: cs).toByteArray.utf8DecodeChar? 0 with
  | some ch => (ch,(c :: cs).drop ch.utf8Size)
  | none => (replacement,cs)

def rune (c : UInt8) (cs : Bytes) : Option (Char × Bytes) :=
  if c = 92 then escapedRune cs
  else if c < 128 then some (Char.ofNat c.toNat,cs)
  else some (utf8Rune c cs)

def unquote : Nat → Bytes → List Char
  | 0,_ => []
  | _ + 1,[] => []
  | fuel + 1,c :: cs =>
      match rune c cs with
      | some r => r.1 :: unquote fuel r.2
      | none => []

theorem unquote_of_rune {c : UInt8} {cs rest : Bytes} {ch : Char}
    (h : rune c cs = some (ch,rest)) (fuel : Nat) :
    unquote (fuel + 1) (c :: cs) = ch :: unquote fuel rest := by
  rw [unquote,h]

def string (bs : Bytes) : Option (List Char × Bytes) :=
  (StrState.plain.scan bs).map fun r => (unquote r.1.length r.1,r.2)

def hexByte (n : Nat) : UInt8 := UInt8.ofNat (if n < 10 then 48 + n else 87 + n)

def quoteByte (n : Nat) : Bytes :=
  if n = 34 ∨ n = 92 then [92,UInt8.ofNat n]
  else if n = 8 then [92,98]
  else if n = 12 then [92,102]
  else if n = 10 then [92,110]
  else if n = 13 then [92,114]
  else if n = 9 then [92,116]
  else if n < 32 ∨ n = 60 ∨ n = 62 ∨ n = 38 then
    [92,117,48,48,hexByte (n / 16),hexByte (n % 16)]
  else [UInt8.ofNat n]

def quoteChar (c : Char) : Bytes :=
  if c.toNat < 128 then quoteByte c.toNat
  else if c.toNat = 0x2028 ∨ c.toNat = 0x2029 then
    [92,117,50,48,50,hexByte (c.toNat % 16)]
  else String.utf8EncodeChar c

def quoteChars (s : List Char) : Bytes := s.flatMap quoteChar

def quote (s : List Char) : Bytes := 34 :: (quoteChars s ++ [34])

theorem through_quoteByte : ∀ n < 128, StrState.plain.through (quoteByte n) = some .plain := by
  decide +kernel

theorem high_ofNat {n : Nat} (h : 128 ≤ n % 256) : 128 ≤ UInt8.ofNat n := by
  exact h

theorem utf8EncodeChar_high {c : Char} (h : ¬ c.toNat < 128) :
    ∀ b ∈ String.utf8EncodeChar c, 128 ≤ b := by
  have hv : ¬ c.val.toNat ≤ 127 := fun hle => h (Nat.lt_succ_of_le hle)
  unfold String.utf8EncodeChar
  simp only [if_neg hv]
  intro b hb
  split at hb
  · simp only [mem_cons,not_mem_nil,or_false] at hb
    rcases hb with rfl | rfl <;> exact high_ofNat (by omega)
  · split at hb
    · simp only [mem_cons,not_mem_nil,or_false] at hb
      rcases hb with rfl | rfl | rfl <;> exact high_ofNat (by omega)
    · simp only [mem_cons,not_mem_nil,or_false] at hb
      rcases hb with rfl | rfl | rfl | rfl <;> exact high_ofNat (by omega)

theorem through_quoteChar (c : Char) : StrState.plain.through (quoteChar c) = some .plain := by
  unfold quoteChar
  split
  · next h => exact through_quoteByte _ h
  · next h =>
    split
    · next hc =>
      rcases hc with hc | hc
      · rw [hc]
        decide
      · rw [hc]
        decide
    · exact StrState.through_high (utf8EncodeChar_high h)

theorem through_quoteChars (s : List Char) :
    StrState.plain.through (quoteChars s) = some .plain := by
  induction s with
  | nil => rfl
  | cons c s ih =>
    rw [quoteChars,flatMap_cons,StrState.through_append (through_quoteChar c)]
    exact ih

theorem hexValue_hexByte : ∀ n < 16, hexValue (hexByte n) = some n := by
  decide +kernel

theorem getu4_of_hex {p q r s : UInt8} {i j k l : Nat} (hp : hexValue p = some i)
    (hq : hexValue q = some j) (hr : hexValue r = some k) (hs : hexValue s = some l)
    (rest : Bytes) :
    getu4 (92 :: 117 :: p :: q :: r :: s :: rest) =
      some (i * 4096 + j * 256 + k * 16 + l) := by
  simp [getu4,hp,hq,hr,hs]

theorem rune_of_hex {p q r s : UInt8} {i j k l : Nat} (hp : hexValue p = some i)
    (hq : hexValue q = some j) (hr : hexValue r = some k) (hs : hexValue s = some l)
    (hl : i * 4096 + j * 256 + k * 16 + l < 0xD800) (rest : Bytes) :
    rune 92 (117 :: p :: q :: r :: s :: rest) =
      some (Char.ofNat (i * 4096 + j * 256 + k * 16 + l),rest) := by
  have hn : ¬ (0xD800 ≤ i * 4096 + j * 256 + k * 16 + l ∧
      i * 4096 + j * 256 + k * 16 + l < 0xE000) := fun h => Nat.not_lt.mpr h.1 hl
  rw [rune,if_pos rfl,escapedRune,if_pos rfl,getu4_of_hex hp hq hr hs,map_some,
    unicodeRune,if_neg hn]
  rfl

theorem rune_plain {n : Nat} (h : n < 128) (hn : n ≠ 92) (rest : Bytes) :
    rune (UInt8.ofNat n) rest = some (Char.ofNat n,rest) := by
  have hb : (UInt8.ofNat n).toNat = n := by
    exact Nat.mod_eq_of_lt (Nat.lt_trans h (by decide))
  have h92 : UInt8.ofNat n ≠ 92 := by
    intro e
    rw [e] at hb
    exact hn hb.symm
  have hlt : UInt8.ofNat n < 128 := by
    rwa [UInt8.lt_iff_toNat_lt,hb]
  rw [rune,if_neg h92,if_pos hlt,hb]

theorem unquote_quoteByte {n : Nat} (h : n < 128) (fuel : Nat) (rest : Bytes) :
    unquote (fuel + 1) (quoteByte n ++ rest) = Char.ofNat n :: unquote fuel rest := by
  unfold quoteByte
  split
  · next hn => rcases hn with rfl | rfl <;> rfl
  next hq =>
  split
  · next hn => subst hn; rfl
  split
  · next hn => subst hn; rfl
  split
  · next hn => subst hn; rfl
  split
  · next hn => subst hn; rfl
  split
  · next hn => subst hn; rfl
  split
  · have hhi := hexValue_hexByte (n / 16) (by omega)
    have hlo := hexValue_hexByte (n % 16) (by omega)
    have h0 : hexValue 48 = some 0 := rfl
    have hv : 0 * 4096 + 0 * 256 + n / 16 * 16 + n % 16 = n := by omega
    have hr := rune_of_hex h0 h0 hhi hlo (by omega) rest
    rw [hv] at hr
    exact unquote_of_rune hr fuel
  · exact unquote_of_rune (rune_plain h (fun e => hq (.inr e)) rest) fuel

theorem unquote_separator {n : Nat} (h : n < 16) (fuel : Nat) (rest : Bytes) :
    unquote (fuel + 1) (92 :: 117 :: 50 :: 48 :: 50 :: hexByte n :: rest) =
      Char.ofNat (0x2020 + n) :: unquote fuel rest := by
  have h0 : hexValue 48 = some 0 := rfl
  have h2 : hexValue 50 = some 2 := rfl
  have hr := rune_of_hex h2 h0 h2 (hexValue_hexByte n h) (by omega) rest
  exact unquote_of_rune hr fuel

theorem unquote_utf8EncodeChar {c : Char} (h : ¬ c.toNat < 128) (fuel : Nat) (rest : Bytes) :
    unquote (fuel + 1) (String.utf8EncodeChar c ++ rest) = c :: unquote fuel rest := by
  have hde : (String.utf8EncodeChar c ++ rest).toByteArray.utf8DecodeChar? 0 = some c := by
    rw [toByteArray_append]
    exact ByteArray.utf8DecodeChar?_utf8EncodeChar_append
  have hd : (String.utf8EncodeChar c ++ rest).drop c.utf8Size = rest := by
    rw [← String.length_utf8EncodeChar c]
    exact drop_left
  have hh := utf8EncodeChar_high h
  cases hu : String.utf8EncodeChar c with
  | nil => exact absurd hu String.utf8EncodeChar_ne_nil
  | cons b bs =>
    rw [hu] at hde hd hh
    have hb := hh b (.head _)
    have h92 : b ≠ 92 := by grind
    have hlt : ¬ b < 128 := by grind
    rw [cons_append] at hde hd ⊢
    apply unquote_of_rune
    rw [rune,if_neg h92,if_neg hlt,utf8Rune]
    simp [hde,hd]

theorem unquote_quoteChar (c : Char) (fuel : Nat) (rest : Bytes) :
    unquote (fuel + 1) (quoteChar c ++ rest) = c :: unquote fuel rest := by
  unfold quoteChar
  split
  · next h => rw [unquote_quoteByte h,Char.ofNat_toNat]
  · next h =>
    split
    · next hc =>
      have hv : 0x2020 + c.toNat % 16 = c.toNat := by omega
      have hs := unquote_separator (Nat.mod_lt c.toNat (by decide)) fuel rest
      rwa [hv,Char.ofNat_toNat] at hs
    · exact unquote_utf8EncodeChar h fuel rest

theorem unquote_quoteChars {s : List Char} {fuel : Nat} (h : s.length ≤ fuel) :
    unquote fuel (quoteChars s) = s := by
  induction s generalizing fuel with
  | nil => cases fuel <;> rfl
  | cons c s ih =>
    cases fuel with
    | zero => cases h
    | succ fuel =>
      rw [quoteChars,flatMap_cons,unquote_quoteChar]
      exact congrArg _ (ih (Nat.le_of_succ_le_succ h))

theorem quoteChar_ne_nil (c : Char) : quoteChar c ≠ [] := by
  intro h
  have := unquote_quoteChar c 0 []
  rw [h] at this
  cases this

theorem length_le_quoteChars (s : List Char) : s.length ≤ (quoteChars s).length := by
  induction s with
  | nil => exact le_rfl
  | cons c s ih =>
    have hc := length_pos_of_ne_nil (quoteChar_ne_nil c)
    rw [quoteChars,flatMap_cons,length_append,length_cons]
    rw [quoteChars] at ih
    omega

theorem length_string {bs rest : Bytes} {s : List Char} (h : string bs = some (s,rest)) :
    rest.length < bs.length := by
  obtain ⟨⟨raw,r⟩,hs,he⟩ := map_eq_some_iff.mp h
  cases he
  rw [(StrState.scan_eq_append hs).1,length_append,length_cons]
  dsimp only
  omega

end Json
