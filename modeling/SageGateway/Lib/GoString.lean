import Mathlib.Data.List.DropRight

abbrev GoString := List Char

namespace GoString

instance decidableMem (s : GoString) (l : List GoString) : Decidable (s ∈ l) :=
  List.instDecidableMemOfLawfulBEq s l

def spaces : List Nat :=
  [0x09,0x0a,0x0b,0x0c,0x0d,0x20,0x85,0xa0,0x1680,0x2000,0x2001,0x2002,0x2003,0x2004,0x2005,
    0x2006,0x2007,0x2008,0x2009,0x200a,0x2028,0x2029,0x202f,0x205f,0x3000]

def isSpace (c : Char) : Bool := c.toNat ∈ spaces

def trimSpace (s : GoString) : GoString := (s.dropWhile isSpace).rdropWhile isSpace

def split (sep : Char) (s : GoString) : List GoString := s.splitOn sep

def cut (sep : Char) : GoString → Option (GoString × GoString)
  | [] => none
  | c :: s => if c = sep then some ([],s) else (cut sep s).map fun p => (c :: p.1,p.2)

theorem cut_of_notMem {sep : Char} {s : GoString} (h : sep ∉ s) : cut sep s = none := by
  induction s with
  | nil => rfl
  | cons c s ih =>
    obtain ⟨hc,hs⟩ := not_or.mp (List.mem_cons.not.mp h)
    rw [cut,if_neg (Ne.symm hc),ih hs]
    rfl

theorem cut_append {sep : Char} {s : GoString} (h : sep ∉ s) (t : GoString) :
    cut sep (s ++ sep :: t) = some (s,t) := by
  induction s with
  | nil => exact if_pos rfl
  | cons c s ih =>
    obtain ⟨hc,hs⟩ := not_or.mp (List.mem_cons.not.mp h)
    rw [List.cons_append,cut,if_neg (Ne.symm hc),ih hs]
    rfl

def cutText (pat : GoString) : GoString → Option (GoString × GoString)
  | [] => if pat = [] then some ([],[]) else none
  | c :: s =>
      if pat.isPrefixOf (c :: s) then some ([],(c :: s).drop pat.length)
      else (cutText pat s).map fun p => (c :: p.1,p.2)

def beforeFirst (c : Char) (s : GoString) : GoString := s.takeWhile (· != c)

def cutLast (c : Char) (s : GoString) : Option (GoString × GoString) :=
  (cut c s.reverse).map fun p => (p.2.reverse,p.1.reverse)

def trimSuffixChar (c : Char) (s : GoString) : GoString :=
  if s.getLast? = some c then s.dropLast else s

def foldChar (c : Char) : Char :=
  if c.toNat = 0x212a then 'k' else if c.toNat = 0x17f then 's' else c.toLower

def equalFoldASCII (s t : GoString) : Bool := s.map foldChar = t.map foldChar

theorem trimSpace_map {f : Char → Char} (hf : ∀ c, isSpace (f c) = isSpace c)
    (s : GoString) : trimSpace (s.map f) = (trimSpace s).map f := by
  have hc : isSpace ∘ f = isSpace := funext hf
  simp only [trimSpace,List.rdropWhile,List.dropWhile_map,hc,← List.map_reverse]

theorem trimSpace_trimSpace (s : GoString) : trimSpace (trimSpace s) = trimSpace s := by
  have hf : (trimSpace s).dropWhile isSpace = trimSpace s := by
    obtain ⟨rest,hr⟩ : trimSpace s <+: s.dropWhile isSpace := List.rdropWhile_prefix _ _
    have hh := List.head?_dropWhile_not isSpace s
    cases ht : trimSpace s with
    | nil => rfl
    | cons c t =>
      rw [← hr,ht] at hh
      exact List.dropWhile_cons_of_neg (Bool.eq_false_iff.mp hh)
  rw [trimSpace,hf]
  exact List.rdropWhile_idempotent isSpace _

theorem toLower_cases (c : Char) :
    c.toLower = c ∧ ¬ (65 ≤ c.toNat ∧ c.toNat ≤ 90) ∨
      65 ≤ c.toNat ∧ c.toNat ≤ 90 ∧ c.toLower.toNat = c.toNat + 32 := by
  unfold Char.toLower
  split
  · next h =>
    refine .inr ⟨UInt32.le_iff_toNat_le.mp h.1,UInt32.le_iff_toNat_le.mp h.2,?_⟩
    have hu : c.val.toNat ≤ 90 := UInt32.le_iff_toNat_le.mp h.2
    show (c.val + ('a'.val - 'A'.val)).toNat = c.val.toNat + 32
    show (c.val.toNat + 32) % 2 ^ 32 = _
    omega
  · next h =>
    refine .inl ⟨rfl,fun ha => h ?_⟩
    exact ⟨UInt32.le_iff_toNat_le.mpr ha.1,UInt32.le_iff_toNat_le.mpr ha.2⟩

theorem toLower_toLower (c : Char) : c.toLower.toLower = c.toLower := by
  rcases toLower_cases c.toLower with ⟨heq,-⟩ | ⟨hlo,hhi,-⟩
  · exact heq
  · rcases toLower_cases c with ⟨heq,hn⟩ | ⟨hl',-,hv⟩
    · rw [heq] at hlo hhi
      exact absurd ⟨hlo,hhi⟩ hn
    · omega

theorem isSpace_toLower (c : Char) : isSpace c.toLower = isSpace c := by
  rcases toLower_cases c with ⟨heq,-⟩ | ⟨hlo,hhi,hv⟩
  · rw [heq]
  · have hs : ∀ n ∈ spaces, n < 65 ∨ 122 < n := by decide
    have hu : c.toNat ∉ spaces := fun hm => by
      have ho := hs _ hm
      omega
    have hl : c.toLower.toNat ∉ spaces := fun hm => by
      have ho := hs _ hm
      omega
    rw [isSpace,isSpace,decide_eq_false hu,decide_eq_false hl]

end GoString
