import SageGateway.Lib.Json.RoundTrip

namespace Json

open List Option

def maxNestingDepth : Nat := 10000

-- No state is a position outside of every string.
def mode : Option StrState → UInt8 → Option StrState
  | none,c => if c = 34 then some .plain else none
  | some q,c => if q = .plain ∧ c = 34 then none else some ((q.next c).getD .plain)

def strip : Option StrState → Bytes → Bytes
  | _,[] => []
  | m,c :: cs => if m.isNone && isSpace c then strip m cs else c :: strip (mode m c) cs

def nesting : Option StrState → Nat → Bytes → Nat
  | _,d,[] => d
  | m,d,c :: cs =>
      if m.isNone && (c == 91 || c == 123) then nesting none (d + 1) cs
      else if m.isNone && (c == 93 || c == 125) then max d (nesting none (d - 1) cs)
      else nesting (mode m c) d cs

def wellFormed (bs : Bytes) : Bool := (decode bs).any fun r => (skip r.2).isEmpty

def valid (bs : Bytes) : Bool := wellFormed bs && decide (nesting none 0 bs ≤ maxNestingDepth)

def compact (bs : Bytes) : Option Bytes := if valid bs then some (strip none bs) else none

def isMarkup (c : UInt8) : Bool := c == 60 || c == 62 || c == 38

-- U+2028 and U+2029 in UTF-8.
def startsSeparator : Bytes → Bool
  | a :: b :: c :: _ => a == 226 && b == 128 && (c == 168 || c == 169)
  | _ => false

def unicodeEscape (c : UInt8) : Bytes :=
  [92,117,48,48,hexByte (c.toNat / 16),hexByte (c.toNat % 16)]

-- The first argument counts the bytes of a separator that are still to be passed over.
def escapeFrom : Nat → Bytes → Bytes
  | _,[] => []
  | n + 1,_ :: cs => escapeFrom n cs
  | 0,c :: cs =>
      if isMarkup c then unicodeEscape c ++ escapeFrom 0 cs
      else if startsSeparator (c :: cs) then
        [92,117,50,48,50,hexByte ((cs.getD 1 0).toNat % 16)] ++ escapeFrom 2 cs
      else c :: escapeFrom 0 cs

def htmlEscape (bs : Bytes) : Bytes := escapeFrom 0 bs

structure Quoted (raw : Bytes) (s : List Char) : Prop where
  through : StrState.plain.through raw = some .plain
  unquoted : unquote raw.length raw = s

theorem Quoted.string {raw : Bytes} {s : List Char} (h : Quoted raw s) (rest : Bytes) :
    string (raw ++ 34 :: rest) = some (s,rest) := by
  rw [Json.string,StrState.scan_through h.through]
  simp only [StrState.scan,and_self,if_true,map_some,append_nil,h.unquoted]

section Scanning

variable {q q' : StrState} {bs raw : Bytes}

theorem mode_of_next {c : UInt8} {q₁ : StrState} (hc : ¬(q = .plain ∧ c = 34))
    (h : q.next c = some q₁) : mode (some q) c = some q₁ := by
  rw [mode,if_neg hc,h]
  rfl

theorem strip_through (h : q.through raw = some q') (rest : Bytes) :
    strip (some q) (raw ++ rest) = raw ++ strip (some q') rest := by
  induction raw generalizing q with
  | nil =>
    cases h
    rfl
  | cons c cs ih =>
    obtain ⟨hc,q₁,hn,hcs⟩ := StrState.through_cons h
    rw [cons_append,strip,mode_of_next hc hn,ih hcs]
    rfl

theorem nesting_through (h : q.through raw = some q') (d : Nat) (rest : Bytes) :
    nesting (some q) d (raw ++ rest) = nesting (some q') d rest := by
  induction raw generalizing q with
  | nil =>
    cases h
    rfl
  | cons c cs ih =>
    obtain ⟨hc,q₁,hn,hcs⟩ := StrState.through_cons h
    rw [cons_append,nesting,mode_of_next hc hn,ih hcs]
    rfl

theorem Quoted.strip {s : List Char} (h : Quoted raw s) (rest : Bytes) :
    strip none (34 :: (raw ++ 34 :: rest)) = 34 :: (raw ++ 34 :: strip none rest) := by
  show 34 :: Json.strip (some .plain) (raw ++ 34 :: rest) = _
  rw [strip_through h.through]
  rfl

theorem Quoted.nesting {s : List Char} (h : Quoted raw s) (d : Nat) (rest : Bytes) :
    nesting none d (34 :: (raw ++ 34 :: rest)) = nesting none d rest := by
  show Json.nesting (some .plain) d (raw ++ 34 :: rest) = _
  rw [nesting_through h.through]
  rfl

def Atomic (c : UInt8) : Prop :=
  isSpace c = false ∧ c ≠ 34 ∧ c ≠ 91 ∧ c ≠ 93 ∧ c ≠ 123 ∧ c ≠ 125

theorem strip_cons {c : UInt8} (hs : isSpace c = false) (hc : c ≠ 34) (cs : Bytes) :
    strip none (c :: cs) = c :: strip none cs := by
  rw [strip,hs,mode,if_neg hc]
  rfl

theorem strip_atoms (h : ∀ c ∈ bs, Atomic c) (rest : Bytes) :
    strip none (bs ++ rest) = bs ++ strip none rest := by
  induction bs with
  | nil => rfl
  | cons c cs ih =>
    obtain ⟨hs,hc,-⟩ := h c (.head _)
    rw [cons_append,strip_cons hs hc,ih fun c hc => h c (mem_cons_of_mem _ hc)]
    rfl

theorem nesting_cons {c : UInt8} (hc : Atomic c) (d : Nat) (cs : Bytes) :
    nesting none d (c :: cs) = nesting none d cs := by
  obtain ⟨-,h34,h91,h93,h123,h125⟩ := hc
  rw [nesting,mode,if_neg h34,if_neg (by simp [h91,h123]),if_neg (by simp [h93,h125])]

theorem nesting_atoms (h : ∀ c ∈ bs, Atomic c) (d : Nat) (rest : Bytes) :
    nesting none d (bs ++ rest) = nesting none d rest := by
  induction bs with
  | nil => rfl
  | cons c cs ih =>
    rw [cons_append,nesting_cons (h c mem_cons_self),
      ih fun c hc => h c (.tail _ hc)]

theorem nesting_space {c : UInt8} (hc : isSpace c = true) (d : Nat) (cs : Bytes) :
    nesting none d (c :: cs) = nesting none d cs := by
  have hca : c = 32 ∨ c = 9 ∨ c = 10 ∨ c = 13 := by
    simp [isSpace] at hc
    tauto
  rcases hca with rfl | rfl | rfl | rfl <;> rfl

theorem strip_skip (bs : Bytes) : strip none (skip bs) = strip none bs := by
  induction bs with
  | nil => rfl
  | cons c cs ih =>
    rw [skip]
    split
    · next hc =>
      rw [ih,strip,hc]
      rfl
    · rfl

theorem nesting_skip (d : Nat) (bs : Bytes) : nesting none d (skip bs) = nesting none d bs := by
  induction bs with
  | nil => rfl
  | cons c cs ih =>
    rw [skip]
    split
    · next hc => rw [ih,nesting_space hc]
    · rfl

theorem le_nesting (m : Option StrState) (d : Nat) (bs : Bytes) : d ≤ nesting m d bs := by
  induction bs generalizing m d with
  | nil => exact le_rfl
  | cons c cs ih =>
    rw [nesting]
    split
    · exact Nat.le_trans (Nat.le_succ d) (ih none (d + 1))
    · split
      · exact Nat.le_max_left d _
      · exact ih _ d

end Scanning

def joinTail : List Bytes → Bytes
  | [] => []
  | b :: bs => 44 :: (b ++ joinTail bs)

def join : List Bytes → Bytes
  | [] => []
  | b :: bs => b ++ joinTail bs

structure Field where
  raw : Bytes
  key : Key
  text : Bytes
  value : Value

def Field.bytes (f : Field) : Bytes := 34 :: (f.raw ++ 34 :: 58 :: f.text)

def Field.member (f : Field) : Key × Value := (f.key,f.value)

inductive Scalar : Bytes → Value → Prop
  | null : Scalar (ascii "null") .null
  | bool (b : Bool) : Scalar (ascii (if b then "true" else "false")) (.bool b)
  | number {lit : Bytes} (h : ValidNumber lit) : Scalar lit (.number lit)
  | string {raw : Bytes} {s : List Char} (h : Quoted raw s) :
      Scalar (34 :: (raw ++ [34])) (.string s)

-- The texts without spaces of a value whose arrays and objects nest at most so deep.
inductive Text : Nat → Bytes → Value → Prop
  | scalar {k : Nat} {t : Bytes} {v : Value} (h : Scalar t v) : Text k t v
  | array {k : Nat} (ts : List (Bytes × Value)) (h : ∀ t ∈ ts, Text k t.1 t.2) :
      Text (k + 1) (91 :: (join (ts.map Prod.fst) ++ [93])) (.array (ts.map Prod.snd))
  | object {k : Nat} (fs : List Field) (hk : ∀ f ∈ fs, Quoted f.raw f.key)
      (h : ∀ f ∈ fs, Text k f.text f.value) :
      Text (k + 1) (123 :: (join (fs.map Field.bytes) ++ [125]))
        (.object (ofMembers (fs.map Field.member)))

section Atoms

theorem atomic_numberByte {c : UInt8} (h : numberByte c = true) : Atomic c := by
  have hne : ∀ b, numberByte b = false → c ≠ b := by
    rintro b hb rfl
    exact absurd (hb.symm.trans h) Bool.false_ne_true
  refine ⟨?_,hne _ rfl,hne _ rfl,hne _ rfl,hne _ rfl,hne _ rfl⟩
  simpa [isSpace] using ⟨⟨⟨hne _ rfl,hne _ rfl⟩,hne _ rfl⟩,hne _ rfl⟩

variable {bs rest t : Bytes} {v : Value}

theorem quoted_of_string {s : List Char} (h : string bs = some (s,rest)) :
    ∃ raw, bs = raw ++ 34 :: rest ∧ Quoted raw s := by
  obtain ⟨⟨raw,r⟩,hs,he⟩ := map_eq_some_iff.mp h
  cases he
  obtain ⟨rfl,hr⟩ := StrState.scan_eq_append hs
  exact ⟨raw,rfl,hr,rfl⟩

theorem quoted_quoteChars (s : List Char) : Quoted (quoteChars s) s :=
  ⟨through_quoteChars s,unquote_quoteChars (length_le_quoteChars s)⟩

theorem Scalar.atoms (h : Scalar t v) :
    (∀ c ∈ t, Atomic c) ∨ ∃ raw s, t = 34 :: (raw ++ [34]) ∧ v = .string s ∧
    Quoted raw s := by
  cases h with
  | null =>
    refine .inl ?_
    simp [Atomic]
    decide +kernel
  | bool b =>
    refine .inl ?_
    simp [Atomic]
    cases b <;> decide +kernel
  | number h => exact .inl fun c hc => atomic_numberByte ((NumState.scan_spec h).2.2 c hc)
  | string h => exact .inr ⟨_,_,rfl,rfl,h⟩

theorem Scalar.strip (h : Scalar t v) (rest : Bytes) :
    strip none (t ++ rest) = t ++ strip none rest := by
  rcases h.atoms with ha | ⟨raw,s,rfl,-,hr⟩
  · exact strip_atoms ha rest
  · simp only [cons_append,append_assoc,nil_append]
    exact hr.strip rest

theorem Scalar.nesting (h : Scalar t v) (d : Nat) (rest : Bytes) :
    nesting none d (t ++ rest) = nesting none d rest := by
  rcases h.atoms with ha | ⟨raw,s,rfl,-,hr⟩
  · exact nesting_atoms ha d rest
  · simp only [cons_append,append_assoc,nil_append]
    exact hr.nesting d rest

theorem literal_eq_append {word : Bytes} {w : Value}
    (h : literal word v bs = some (w,rest)) : w = v ∧ bs = word ++ rest := by
  unfold literal at h
  split at h
  · next hp =>
    cases h
    obtain ⟨tail,rfl⟩ := isPrefixOf_iff_prefix.mp hp
    exact ⟨rfl,by rw [drop_left]⟩
  · cases h

theorem scalar_eq_append (h : scalar bs = some (v,rest)) :
    ∃ t, bs = t ++ rest ∧ Scalar t v := by
  cases bs with
  | nil => cases h
  | cons c cs =>
    rw [scalar] at h
    split at h
    · next hc =>
      obtain ⟨⟨s,r⟩,hs,he⟩ := map_eq_some_iff.mp h
      cases he
      obtain ⟨raw,rfl,hr⟩ := quoted_of_string hs
      refine ⟨34 :: (raw ++ [34]),?_,.string hr⟩
      rw [hc,cons_append,append_assoc,singleton_append]
    split at h
    · obtain ⟨rfl,hbs⟩ := literal_eq_append h
      exact ⟨_,hbs,.bool true⟩
    split at h
    · obtain ⟨rfl,hbs⟩ := literal_eq_append h
      exact ⟨_,hbs,.bool false⟩
    split at h
    · obtain ⟨rfl,hbs⟩ := literal_eq_append h
      exact ⟨_,hbs,.null⟩
    · obtain ⟨⟨lit,r⟩,hn,he⟩ := map_eq_some_iff.mp h
      cases he
      exact ⟨lit,(NumState.scan_spec hn).1,.number (number_valid hn).1⟩

end Atoms

section Reading

variable {t : Bytes} {fuel : Nat} {v : Value}

theorem Reads.value {bs rest : Bytes} (h : Reads bs v rest)
    (hf : 2 * bs.length ≤ fuel) : value fuel bs = some (v,rest) := by
  obtain ⟨g,hg⟩ := h
  exact ((decodes g).1 _ _ _ hg).2.2 fuel hf

theorem Scalar.reads {rest : Bytes} (h : Scalar t v) (ha : Apart rest) :
    Reads (t ++ rest) v rest := by
  refine ⟨1,?_⟩
  cases h with
  | null => rfl
  | bool b => cases b <;> rfl
  | number h => exact scalar_number h ha 0
  | string h =>
    rw [cons_append,append_assoc,singleton_append,
      value_of_scalar rfl (by decide) (by decide),scalar,if_pos rfl,h.string]
    rfl

theorem Scalar.starts (h : Scalar t v) :
    ∃ c cs, t = c :: cs ∧ isSpace c = false ∧ c ≠ 93 := by
  cases h with
  | null => exact ⟨_,_,rfl,rfl,by decide⟩
  | bool b => cases b <;> exact ⟨_,_,rfl,rfl,by decide⟩
  | number h =>
    obtain ⟨c,cs,rfl,-⟩ := h.cons
    obtain ⟨hs,-,-,hc,-⟩ := atomic_numberByte ((NumState.scan_spec h).2.2 c (.head _))
    exact ⟨c,cs,rfl,hs,hc⟩
  | string h => exact ⟨_,_,rfl,rfl,by decide⟩

theorem Text.starts {k : Nat} (h : Text k t v) :
    ∃ c cs, t = c :: cs ∧ isSpace c = false ∧ c ≠ 93 := by
  cases h with
  | scalar h => exact h.starts
  | array | object => exact ⟨_,_,rfl,rfl,by decide⟩

theorem join_cons {b : Bytes} {bs : List Bytes} (h : bs ≠ []) :
    join (b :: bs) = b ++ 44 :: join bs := by
  cases bs with
  | nil => exact absurd rfl h
  | cons c cs => rfl

def ReadsItem {α : Type} (one : Nat → Bytes → Option (α × Bytes)) (b : Bytes) (x : α) : Prop :=
  ∀ n rest, Apart rest → 2 * (b ++ rest).length ≤ n → one n (b ++ rest) = some (x,rest)

theorem items_join {α β : Type} {one : Nat → Bytes → Option (α × Bytes)}
    {items : Nat → Bytes → Option (List α × Bytes)} {close : UInt8} {b : β → Bytes} {x : β → α}
    (hi : ∀ n bs, items (n + 1) bs = (one n bs).bind fun r => closing close r.1 (items n) r.2)
    (hs : isSpace close = false) (hc : close ≠ 44) (hn : numberByte close = false)
    {t : β} {ts : List β} (h : ∀ u ∈ t :: ts, ReadsItem one (b u) (x u)) (rest : Bytes)
    (hf : 2 * (join ((t :: ts).map b) ++ close :: rest).length ≤ fuel) :
    items (fuel + 1) (join ((t :: ts).map b) ++ close :: rest) =
      some ((t :: ts).map x,rest) := by
  induction ts generalizing t fuel with
  | nil =>
    rw [map_singleton,join,joinTail,append_nil] at hf ⊢
    rw [hi,h t mem_cons_self _ _ (apart_cons hn _) hf]
    exact closing_close hs hc _ _ rest
  | cons u us ih =>
    obtain ⟨ht,hts⟩ := forall_mem_cons.mp h
    rw [map_cons,join_cons (by simp),append_assoc,cons_append] at hf ⊢
    rw [hi,ht _ _ (apart_cons rfl _) hf,bind_some,closing_comma]
    simp only [length_append,length_cons] at hf
    obtain ⟨g,rfl⟩ : ∃ g, fuel = g + 1 := ⟨fuel - 1,by omega⟩
    rw [ih hts (by
      simp only [length_append,length_cons]
      omega)]
    rfl

theorem Quoted.key {raw : Bytes} {k : Key} (h : Quoted raw k) (rest : Bytes) :
    key (34 :: (raw ++ 34 :: 58 :: rest)) = some (k,rest) := by
  rw [Json.key,skip_of_not_space rfl]
  simp only [if_true]
  rw [h.string]
  rfl

def member (fuel : Nat) (bs : Bytes) : Option ((Key × Value) × Bytes) :=
  (key bs).bind fun k => (value fuel k.2).map fun r => ((k.1,r.1),r.2)

theorem members_succ (n : Nat) (bs : Bytes) :
    members (n + 1) bs = (member n bs).bind fun r => closing 125 r.1 (members n) r.2 := by
  rw [member,Option.bind_assoc]
  simp only [bind_map]
  rfl

theorem Text.reads {k : Nat} (h : Text k t v) (rest : Bytes)
    (ha : Apart rest) : Reads (t ++ rest) v rest := by
  induction h generalizing rest with
  | scalar h => exact h.reads ha
  | array ts h ih =>
    cases ts with
    | nil => exact ⟨1,rfl⟩
    | cons t ts =>
      obtain ⟨c,cs,ht,hs,hc⟩ := (h t (.head _)).starts
      obtain ⟨n,he⟩ : ∃ n, elements n (join ((t :: ts).map Prod.fst) ++ 93 :: rest) = _ :=
        ⟨_,items_join (fun _ _ => rfl) rfl (by decide) rfl
          (fun u hu _ rest ha => (ih u hu rest ha).value) rest le_rfl⟩
      refine ⟨n + 1,?_⟩
      rw [cons_append,append_assoc,singleton_append,value_array]
      rw [map_cons,join,ht,cons_append,cons_append] at he ⊢
      rw [opened_of_ne hs hc,he]
      rfl
  | object fs hk h ih =>
    cases fs with
    | nil => exact ⟨1,rfl⟩
    | cons f fs =>
      have hr : ∀ u ∈ f :: fs, ReadsItem member u.bytes u.member := by
        intro u hu n rest ha hn
        simp only [Field.bytes,cons_append,append_assoc,length_cons,length_append] at hn ⊢
        rw [member,(hk u hu).key,bind_some,(ih u hu rest ha).value (by
          rw [length_append]
          omega)]
        rfl
      obtain ⟨n,he⟩ : ∃ n, members n (join ((f :: fs).map Field.bytes) ++ 125 :: rest) = _ :=
        ⟨_,items_join members_succ rfl (by decide) rfl hr rest le_rfl⟩
      refine ⟨n + 1,?_⟩
      rw [cons_append,append_assoc,singleton_append,value_object]
      rw [map_cons,join,Field.bytes,cons_append,cons_append] at he ⊢
      rw [opened_of_ne rfl (by decide),he]
      rfl

end Reading

section Compacting

theorem join_closed {P : Bytes → Prop} (hn : P []) (hc : P [44])
    (ha : ∀ {a b}, P a → P b → P (a ++ b)) {bs : List Bytes} (h : ∀ b ∈ bs, P b) :
    P (join bs) := by
  have ht : ∀ bs : List Bytes, (∀ b ∈ bs, P b) → P (joinTail bs) := by
    intro bs h
    induction bs with
    | nil => exact hn
    | cons b bs ih =>
      obtain ⟨hb,hbs⟩ := forall_mem_cons.mp h
      exact ha hc (ha hb (ih hbs))
  cases bs with
  | nil => exact hn
  | cons b bs =>
    obtain ⟨hb,hbs⟩ := forall_mem_cons.mp h
    exact ha hb (ht bs hbs)

variable {bs rest t : Bytes} {fuel k : Nat} {c : UInt8} {v : Value}

theorem bracketed_closed {P : Bytes → Prop} (hn : P []) (hco : P [44])
    (ha : ∀ {a b}, P a → P b → P (a ++ b)) {o : UInt8} (ho : P [o]) (hc : P [c])
    {bs : List Bytes} (h : ∀ b ∈ bs, P b) : P (o :: (join bs ++ [c])) :=
  ha ho (ha (join_closed hn hco ha h) hc)

theorem Text.mono {l : Nat} (h : Text k t v) (hkl : k ≤ l) :
    Text l t v := by
  induction h generalizing l with
  | scalar h => exact .scalar h
  | array ts h ih =>
    obtain ⟨m,rfl⟩ : ∃ m, l = m + 1 := ⟨l - 1,by omega⟩
    exact .array ts fun t ht => ih t ht (Nat.le_of_succ_le_succ hkl)
  | object fs hk h ih =>
    obtain ⟨m,rfl⟩ : ∃ m, l = m + 1 := ⟨l - 1,by omega⟩
    exact .object fs hk fun f hf => ih f hf (Nat.le_of_succ_le_succ hkl)

theorem nesting_open (hc : c = 91 ∨ c = 123) (d : Nat) (cs : Bytes) :
    nesting none d (c :: cs) = nesting none (d + 1) cs := by
  rcases hc with rfl | rfl <;> rfl

theorem nesting_close (hc : c = 93 ∨ c = 125) (d : Nat) (cs : Bytes) :
    nesting none (d + 1) (c :: cs) = max (d + 1) (nesting none d cs) := by
  rcases hc with rfl | rfl <;> rfl

theorem atomic_colon : Atomic 58 := ⟨rfl,by decide,by decide,by decide,by decide,by decide⟩

def ReadsText (fuel : Nat) : Prop :=
  ∀ {bs rest : Bytes} {v : Value} {d k : Nat}, value fuel bs = some (v,rest) →
    nesting none d bs ≤ d + k →
      ∃ t, Text k t v ∧ strip none bs = t ++ strip none rest ∧ nesting none d rest ≤ d + k

def ReadsElements (fuel : Nat) : Prop :=
  ∀ {bs rest : Bytes} {vs : List Value} {d k : Nat}, elements fuel bs = some (vs,rest) →
    nesting none (d + 1) bs ≤ d + 1 + k →
      ∃ ts : List (Bytes × Value), ts.map Prod.snd = vs ∧ ts ≠ [] ∧ (∀ t ∈ ts, Text k t.1 t.2) ∧
        strip none bs = join (ts.map Prod.fst) ++ 93 :: strip none rest ∧
        nesting none d rest ≤ d + 1 + k

def ReadsMembers (fuel : Nat) : Prop :=
  ∀ {bs rest : Bytes} {ms : List (Key × Value)} {d k : Nat}, members fuel bs = some (ms,rest) →
    nesting none (d + 1) bs ≤ d + 1 + k →
      ∃ fs : List Field, fs.map Field.member = ms ∧ fs ≠ [] ∧
        (∀ f ∈ fs, Quoted f.raw f.key ∧ Text k f.text f.value) ∧
        strip none bs = join (fs.map Field.bytes) ++ 125 :: strip none rest ∧
        nesting none d rest ≤ d + 1 + k

theorem skip_split {cs : Bytes} (h : skip bs = c :: cs) (hc : isSpace c = false)
    (h34 : c ≠ 34) : strip none bs = c :: strip none cs := by
  rw [← strip_skip bs,h,strip_cons hc h34]

theorem elements_text (hv : ReadsText fuel) (he : ReadsElements fuel) :
    ReadsElements (fuel + 1) := by
  intro bs rest vs d k h hde
  obtain ⟨⟨v,r⟩,hva,hc⟩ := bind_eq_some_iff.mp h
  obtain ⟨t,ht,hst,hr⟩ := hv hva hde
  rcases closing_some hc with ⟨cs,l,hs,hm,rfl⟩ | ⟨hs,-,rfl⟩
  · rw [← nesting_skip,hs] at hr
    obtain ⟨ts,rfl,hne,hts,hsr,hd⟩ := he hm hr
    refine ⟨(t,v) :: ts,rfl,cons_ne_nil _ _,forall_mem_cons.mpr ⟨ht,hts⟩,?_,hd⟩
    have hma : ts.map Prod.fst ≠ [] := fun hn => hne (map_eq_nil_iff.mp hn)
    rw [hst,skip_split hs rfl (by decide),hsr,map_cons,join_cons hma,
      append_assoc,cons_append]
  · rw [← nesting_skip,hs,nesting_close (.inl rfl)] at hr
    refine ⟨[(t,v)],rfl,cons_ne_nil _ _,forall_mem_singleton.mpr ht,?_,by omega⟩
    rw [hst,skip_split hs rfl (by decide)]
    simp [join,joinTail]

theorem key_eq_append {key : Key} (h : Json.key bs = some (key,rest)) :
    ∃ raw, Quoted raw key ∧
      strip none bs = 34 :: (raw ++ 34 :: 58 :: strip none rest) ∧
      ∀ d, nesting none d bs = nesting none d rest := by
  unfold Json.key at h
  split at h
  · cases h
  · next c cs hsk =>
    split at h
    · next hc =>
      subst hc
      obtain ⟨⟨s,r⟩,hs,hco⟩ := bind_eq_some_iff.mp h
      obtain ⟨raw,rfl,hr⟩ := quoted_of_string hs
      unfold colon at hco
      split at hco
      · cases hco
      · next c' cs' hs' =>
        split at hco
        · next hc' =>
          subst hc'
          cases hco
          refine ⟨raw,hr,?_,fun d => ?_⟩
          · rw [← strip_skip bs,hsk,hr.strip,skip_split hs' rfl (by decide)]
          · rw [← nesting_skip d bs,hsk,hr.nesting,← nesting_skip d r,hs',
              nesting_cons atomic_colon]
        · cases hco
    · cases h

theorem members_text (hv : ReadsText fuel) (hm : ReadsMembers fuel) :
    ReadsMembers (fuel + 1) := by
  intro bs rest ms d k h hd
  obtain ⟨⟨key,b⟩,hke,h⟩ := bind_eq_some_iff.mp h
  obtain ⟨⟨v,r⟩,hva,hc⟩ := bind_eq_some_iff.mp h
  obtain ⟨raw,hra,hk,hsa⟩ := key_eq_append hke
  rw [hsa] at hd
  obtain ⟨t,ht,hst,hr⟩ := hv hva hd
  rcases closing_some hc with ⟨cs,l,hs,hmo,rfl⟩ | ⟨hs,-,rfl⟩
  · rw [← nesting_skip,hs] at hr
    obtain ⟨fs,rfl,hne,hfs,hsr,hde⟩ := hm hmo hr
    refine ⟨⟨raw,key,t,v⟩ :: fs,rfl,cons_ne_nil _ _,
      forall_mem_cons.mpr ⟨⟨hra,ht⟩,hfs⟩,?_,hde⟩
    have hma : fs.map Field.bytes ≠ [] := fun hn => hne (map_eq_nil_iff.mp hn)
    rw [hk,hst,skip_split hs rfl (by decide),hsr,map_cons,join_cons hma]
    simp [Field.bytes]
  · rw [← nesting_skip,hs,nesting_close (.inr rfl)] at hr
    refine ⟨[⟨raw,key,t,v⟩],rfl,cons_ne_nil _ _,forall_mem_singleton.mpr ⟨hra,ht⟩,?_,
      by omega⟩
    rw [hk,hst,skip_split hs rfl (by decide)]
    simp [join,joinTail,Field.bytes]

theorem value_text (he : ReadsElements fuel) (hm : ReadsMembers fuel) :
    ReadsText (fuel + 1) := by
  intro bs rest v d k h hd
  rw [value] at h
  split at h
  · cases h
  next c cs hs =>
  rw [← nesting_skip,hs] at hd
  -- An opening bracket uses up one level of the depth that is left.
  have ho : c = 91 ∨ c = 123 → ∃ l, k = l + 1 ∧ nesting none (d + 1) cs ≤ d + 1 + l := by
    intro hc
    rw [nesting_open hc] at hd
    have := le_nesting none (d + 1) cs
    exact ⟨k - 1,by omega,by omega⟩
  split at h
  · next hc =>
    obtain ⟨l,rfl,hcs⟩ := ho (.inr hc)
    subst hc
    rcases opened_some h with ⟨hcl,rfl⟩ | ⟨c',cs',hs',-,hmo⟩
    · refine ⟨[123,125],.object [] (forall_mem_nil _) (forall_mem_nil _),?_,?_⟩
      · rw [skip_split hs rfl (by decide),skip_split hcl rfl (by decide)]
        rfl
      · rw [← nesting_skip,hcl,nesting_close (.inr rfl)] at hcs
        omega
    · obtain ⟨⟨ms,r⟩,hms,heq⟩ := map_eq_some_iff.mp hmo
      cases heq
      rw [← nesting_skip,hs'] at hcs
      obtain ⟨fs,rfl,-,hfs,hst,hr⟩ := hm hms hcs
      refine ⟨_,.object fs (fun f hf => (hfs f hf).1) (fun f hf => (hfs f hf).2),?_,
        Nat.le_trans hr (by omega)⟩
      rw [skip_split hs rfl (by decide),← strip_skip cs,hs',hst,cons_append,
        append_assoc,singleton_append]
  split at h
  · next hc =>
    obtain ⟨l,rfl,hcs⟩ := ho (.inl hc)
    subst hc
    rcases opened_some h with ⟨hcl,rfl⟩ | ⟨c',cs',hs',-,hmo⟩
    · refine ⟨[91,93],.array [] (forall_mem_nil _),?_,?_⟩
      · rw [skip_split hs rfl (by decide),skip_split hcl rfl (by decide)]
        rfl
      · rw [← nesting_skip,hcl,nesting_close (.inl rfl)] at hcs
        omega
    · obtain ⟨⟨vs,r⟩,hvs,heq⟩ := map_eq_some_iff.mp hmo
      cases heq
      rw [← nesting_skip,hs'] at hcs
      obtain ⟨ts,rfl,-,hts,hst,hr⟩ := he hvs hcs
      refine ⟨_,.array ts hts,?_,Nat.le_trans hr (by omega)⟩
      rw [skip_split hs rfl (by decide),← strip_skip cs,hs',hst,cons_append,
        append_assoc,singleton_append]
  · obtain ⟨t,ht,hsc⟩ := scalar_eq_append h
    rw [ht,hsc.nesting] at hd
    refine ⟨t,.scalar hsc,?_,hd⟩
    rw [← strip_skip bs,hs,ht,hsc.strip]

theorem readsText (fuel : Nat) : ReadsText fuel ∧ ReadsElements fuel ∧ ReadsMembers fuel := by
  induction fuel with
  | zero =>
    refine ⟨?_,?_,?_⟩
    · nofun
    · nofun
    · nofun
  | succ fuel ih =>
    obtain ⟨hv,he,hm⟩ := ih
    exact ⟨value_text he hm,elements_text hv he,members_text hv hm⟩

theorem strip_blank (h : skip bs = []) : strip none bs = [] := by
  rw [← strip_skip bs,h]
  rfl

theorem wellFormed_text (h : wellFormed bs = true) :
    ∃ v rest, Reads bs v rest ∧ skip rest = [] ∧ Text (nesting none 0 bs) (strip none bs) v := by
  rw [wellFormed] at h
  cases hd : decode bs with
  | none =>
    rw [hd] at h
    cases h
  | some r =>
    obtain ⟨v,rest⟩ := r
    rw [hd] at h
    have hb := List.isEmpty_iff.mp h
    obtain ⟨t,ht,hs,-⟩ := (readsText _).1 hd (Nat.le_of_eq (Nat.zero_add _).symm)
    rw [strip_blank hb,append_nil] at hs
    rw [hs]
    exact ⟨v,rest,decode_iff.mp hd,hb,ht⟩

end Compacting

section Encoding

theorem encode_array (vs : List Value) :
    encode (.array vs) = 91 :: (join (vs.map encode) ++ [93]) := by
  have ht : ∀ vs : List Value, encodeElements vs = joinTail (vs.map encode) := by
    intro vs
    induction vs with
    | nil => rfl
    | cons v vs ih => rw [encodeElements,ih,map_cons,joinTail]
  cases vs with
  | nil => rfl
  | cons v vs => rw [encode,ht,map_cons,join,append_assoc]

def fieldOf (p : Key × Value) : Field := ⟨quoteChars p.1,p.1,encode p.2,p.2⟩

theorem encode_object (ms : List (Key × Value)) :
    encode (.object ms) = 123 :: (join ((ms.map fieldOf).map Field.bytes) ++ [125]) := by
  have hb : ∀ p : Key × Value, ∀ rest,
      quote p.1 ++ 58 :: (encode p.2 ++ rest) = (fieldOf p).bytes ++ rest := by
    simp [quote,fieldOf,Field.bytes]
  have ht : ∀ ms : List (Key × Value),
      encodeMembers ms = joinTail ((ms.map fieldOf).map Field.bytes) := by
    intro ms
    induction ms with
    | nil => rfl
    | cons p ms ih => rw [encodeMembers,ih,hb,map_cons,map_cons,joinTail]
  cases ms with
  | nil => rfl
  | cons p ms =>
    rw [encode,hb,ht,map_cons,map_cons,join,append_assoc]

mutual

theorem Value.Canonical.text : (v : Value) → v.Canonical → ∃ k, Text k (encode v) v
  | .null,_ => ⟨0,.scalar .null⟩
  | .bool true,_ => ⟨0,.scalar (.bool true)⟩
  | .bool false,_ => ⟨0,.scalar (.bool false)⟩
  | .number _,h => ⟨0,.scalar (.number h)⟩
  | .string s,_ => ⟨0,.scalar (.string (quoted_quoteChars s))⟩
  | .array vs,h => by
    obtain ⟨k,hk⟩ := elements_encode vs h
    have ht := Text.array (vs.map fun v => (encode v,v)) (List.forall_mem_map.mpr hk)
    rw [List.map_map,List.map_map] at ht
    refine ⟨k + 1,?_⟩
    rw [encode_array]
    simpa [Function.comp_def] using ht
  | .object ms,h => by
    obtain ⟨k,hk⟩ := members_encode ms h.2
    have ht := Text.object (ms.map fieldOf)
      (List.forall_mem_map.mpr fun p _ => quoted_quoteChars p.1) (List.forall_mem_map.mpr hk)
    have hms : (ms.map fieldOf).map Field.member = ms := by
      simp [Function.comp_def,fieldOf,Field.member]
    rw [hms,ofMembers_sorted h.1] at ht
    exact ⟨k + 1,encode_object ms ▸ ht⟩

theorem elements_encode : (vs : List Value) → AllCanonical vs →
    ∃ k, ∀ v ∈ vs, Text k (encode v) v
  | [],_ => ⟨0,List.forall_mem_nil _⟩
  | v :: vs,h => by
    obtain ⟨k,hv⟩ := Value.Canonical.text v h.1
    obtain ⟨l,hvs⟩ := elements_encode vs h.2
    exact ⟨max k l,forall_mem_cons.mpr ⟨hv.mono (Nat.le_max_left k l),
      fun w hw => (hvs w hw).mono (Nat.le_max_right k l)⟩⟩

theorem members_encode : (ms : List (Key × Value)) → MembersCanonical ms →
    ∃ k, ∀ p ∈ ms, Text k (encode p.2) p.2
  | [],_ => ⟨0,List.forall_mem_nil _⟩
  | p :: ms,h => by
    obtain ⟨k,hv⟩ := Value.Canonical.text p.2 h.1
    obtain ⟨l,hms⟩ := members_encode ms h.2
    exact ⟨max k l,forall_mem_cons.mpr ⟨hv.mono (Nat.le_max_left k l),
      fun q hq => (hms q hq).mono (Nat.le_max_right k l)⟩⟩

end

theorem reads_encode {v : Value} (h : v.Canonical) : Reads (encode v) v [] := by
  obtain ⟨k,ht⟩ := Value.Canonical.text v h
  have hr := ht.reads [] nofun
  rwa [append_nil] at hr

theorem encode_injective {v w : Value} (hv : v.Canonical) (hw : w.Canonical)
    (h : encode v = encode w) : v = w := by
  have hr := decode_iff.mpr (reads_encode hv)
  rw [h,decode_iff.mpr (reads_encode hw)] at hr
  cases hr
  rfl

end Encoding

section Printable

theorem StrState.printable_of_next {q q' : StrState} {c : UInt8} (h : q.next c = some q') :
    32 ≤ c := by
  have he : ∀ b ∈ ([98,102,110,114,116,92,47,34] : Bytes), 32 ≤ b := by
    decide +kernel
  cases q with
  | plain | escape => grind [StrState.next]
  | hex n => cases n <;> grind [StrState.next,hexValue,isDigit]

theorem StrState.printable_of_through {q q' : StrState} {raw : Bytes}
    (h : q.through raw = some q') : ∀ c ∈ raw, 32 ≤ c := by
  induction raw generalizing q with
  | nil => exact forall_mem_nil _
  | cons c cs ih =>
    obtain ⟨-,q₁,hq,h⟩ := through_cons h
    exact forall_mem_cons.mpr ⟨printable_of_next hq,ih h⟩

theorem Quoted.printable {raw : Bytes} {s : List Char} (h : Quoted raw s) : ∀ c ∈ raw, 32 ≤ c :=
  StrState.printable_of_through h.through

theorem printable_numberByte {c : UInt8} (h : numberByte c = true) : 32 ≤ c := by
  grind [numberByte,isDigit]

theorem Scalar.printable {t : Bytes} {v : Value} (h : Scalar t v) : ∀ c ∈ t, 32 ≤ c := by
  cases h with
  | null => decide +kernel
  | bool b => cases b <;> decide +kernel
  | number h => exact fun c hc => printable_numberByte ((NumState.scan_spec h).2.2 c hc)
  | string h =>
    intro c hc
    rcases mem_cons.mp hc with rfl | hc
    · decide
    rcases mem_append.mp hc with hr | hq
    · exact h.printable c hr
    · cases mem_singleton.mp hq
      decide

theorem printable_bracketed {o c : UInt8} (ho : 32 ≤ o) (hc : 32 ≤ c) {bs : List Bytes}
    (h : ∀ b ∈ bs, ∀ d ∈ b, 32 ≤ d) : ∀ d ∈ o :: (join bs ++ [c]), 32 ≤ d :=
  bracketed_closed (P := fun b => ∀ d ∈ b, 32 ≤ d) (forall_mem_nil _) (by decide +kernel)
    (fun ha hb => forall_mem_append.mpr ⟨ha,hb⟩) (forall_mem_singleton.mpr ho)
    (forall_mem_singleton.mpr hc) h

theorem Text.printable {k : Nat} {t : Bytes} {v : Value} (h : Text k t v) : ∀ c ∈ t, 32 ≤ c := by
  induction h with
  | scalar h => exact h.printable
  | array ts h ih =>
    refine printable_bracketed (by decide) (by decide) fun b hb => ?_
    obtain ⟨t,ht,rfl⟩ := List.mem_map.mp hb
    exact ih t ht
  | object fs hk h ih =>
    refine printable_bracketed (by decide) (by decide) fun b hb => ?_
    obtain ⟨f,hf,rfl⟩ := List.mem_map.mp hb
    have hc : ∀ c ∈ 34 :: 58 :: f.text, 32 ≤ c :=
      forall_mem_cons.mpr ⟨by decide,forall_mem_cons.mpr ⟨by decide,ih f hf⟩⟩
    exact forall_mem_cons.mpr
      ⟨by decide,forall_mem_append.mpr ⟨(hk f hf).printable,hc⟩⟩

theorem mem_strip {m : Option StrState} {bs : Bytes} {c : UInt8} (h : c ∈ bs)
    (hc : isSpace c = false) : c ∈ strip m bs := by
  induction bs generalizing m with
  | nil => cases h
  | cons b bs ih =>
    rw [strip]
    split
    · next hs =>
      rcases mem_cons.mp h with rfl | h
      · rw [hc,Bool.and_false] at hs
        cases hs
      · exact ih h
    · rcases mem_cons.mp h with rfl | h
      · exact .head _
      · exact .tail _ (ih h)

theorem nul_notMem_of_wellFormed {bs : Bytes} (h : wellFormed bs = true) : 0 ∉ bs := by
  intro hm
  obtain ⟨v,rest,-,-,ht⟩ := wellFormed_text h
  exact absurd (ht.printable 0 (mem_strip hm rfl)) (by decide)

end Printable

end Json
