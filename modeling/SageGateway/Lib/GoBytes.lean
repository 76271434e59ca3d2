import Mathlib.Data.List.DropRight
import Mathlib.Data.List.Infix

namespace GoBytes

open List

def spaces : List (List UInt8) :=
  [[9],[10],[11],[12],[13],[32],[194,133],[194,160],[225,154,128],[226,128,128],[226,128,129],
    [226,128,130],[226,128,131],[226,128,132],[226,128,133],[226,128,134],[226,128,135],
    [226,128,136],[226,128,137],[226,128,138],[226,128,168],[226,128,169],[226,128,175],
    [226,129,159],[227,128,128]]

def isSpace (r : List UInt8) : Bool := spaces.contains r

-- Only the white space is decoded; every other byte stands alone.
def runes : List UInt8 → List (List UInt8)
  | [] => []
  | [a] => [[a]]
  | [a,b] => if isSpace [a,b] then [[a,b]] else [[a],[b]]
  | a :: b :: c :: s =>
      if isSpace [a,b,c] then [a,b,c] :: runes s
      else if isSpace [a,b] then [a,b] :: runes (c :: s)
      else [a] :: runes (b :: c :: s)

def trim (rs : List (List UInt8)) : List (List UInt8) :=
  (rs.dropWhile isSpace).rdropWhile isSpace

def trimSpace (s : List UInt8) : List UInt8 := (trim (runes s)).flatten

theorem flatten_runes (s : List UInt8) : (runes s).flatten = s := by
  fun_induction runes s <;> simp_all

theorem ne_nil_of_mem_runes {s r : List UInt8} (h : r ∈ runes s) : r ≠ [] := by
  fun_induction runes s <;> aesop

theorem isSpace_iff {r : List UInt8} : isSpace r = true ↔ r ∈ spaces := contains_iff_mem

theorem isSpace_return {r : List UInt8} (h : isSpace r = true) (hr : 13 ∈ r) : r = [13] := by
  have hs : ∀ w ∈ spaces, 13 ∈ w → w = [13] := by decide
  exact hs r (isSpace_iff.mp h) hr

theorem runes_cons {a : UInt8} (h : ∀ w ∈ spaces, a ∈ w → w = [a]) (s : List UInt8) :
    runes (a :: s) = [a] :: runes s := by
  have hn : ∀ b t, isSpace (a :: b :: t) = false := fun b t => by
    refine Bool.eq_false_iff.mpr fun hm => ?_
    cases h _ (isSpace_iff.mp hm) mem_cons_self
  rcases s with _ | ⟨b,_ | ⟨c,s⟩⟩ <;> simp [runes,hn]

theorem runes_append (a b : List UInt8) : runes (a ++ 13 :: b) = runes a ++ [13] :: runes b := by
  have hn : ∀ r, 13 ∈ r → r ≠ [13] → isSpace r = false := fun r hr hne =>
    Bool.eq_false_iff.mpr fun h => hne (isSpace_return h hr)
  have hc := runes_cons (a := 13) (by decide) b
  fun_induction runes a with
  | case1 => exact hc
  | case2 x => cases b <;> simp_all [runes]
  | case3 x y h => simp_all [runes]
  | case4 x y h => cases b <;> simp_all [runes]
  | case5 x y z s h ih => simp_all [runes]
  | case6 x y z s h h' ih => simp_all [runes]
  | case7 x y z s h h' ih => simp_all [runes]

theorem trimSpace_of_forall {s : List UInt8} (h : ∀ r ∈ runes s, isSpace r = false) :
    trimSpace s = s := by
  have hd : (runes s).dropWhile isSpace = runes s :=
    dropWhile_eq_self_iff.mpr fun hl => by simp [h _ (getElem_mem hl)]
  rw [trimSpace,trim,hd,rdropWhile_eq_self_iff.mpr fun hl => by simp [h _ (getLast_mem hl)],
    flatten_runes]

theorem trim_flatten_eq_nil_iff {rs : List (List UInt8)} (hn : ∀ r ∈ rs, r ≠ []) :
    (trim rs).flatten = [] ↔ ∀ r ∈ rs, isSpace r = true := by
  rw [flatten_eq_nil_iff]
  constructor
  · intro h
    have he : trim rs = [] := eq_nil_iff_forall_not_mem.mpr fun r hr =>
      hn r ((dropWhile_sublist _).mem (( rdropWhile_prefix _ _).mem hr)) (h r hr)
    intro r hr
    rw [← takeWhile_append_dropWhile (p := isSpace) (l := rs)] at hr
    exact (mem_append.mp hr).elim mem_takeWhile_imp (rdropWhile_eq_nil_iff.mp he r)
  · intro h r hr
    rw [trim,dropWhile_eq_nil_iff.mpr h] at hr
    cases hr

theorem trim_append_flatten_iff {as rs : List (List UInt8)} (hn : ∀ r ∈ rs, r ≠ []) :
    (trim (as ++ rs)).flatten = (trim as).flatten ↔ ∀ r ∈ rs, isSpace r = true := by
  by_cases ha : as.dropWhile isSpace = []
  · rw [← trim_flatten_eq_nil_iff hn,trim,trim,dropWhile_append,ha]
    rfl
  rw [trim,dropWhile_append,if_neg (mt List.isEmpty_iff.mp ha),rdropWhile,reverse_append,
    dropWhile_append]
  split_ifs with hr <;> rw [List.isEmpty_iff] at hr
  · exact iff_of_true rfl fun r h => dropWhile_eq_nil_iff.mp hr r (mem_reverse.mpr h)
  refine iff_of_false (fun h => ?_) fun h =>
    hr (dropWhile_eq_nil_iff.mpr fun r hm => h r (mem_reverse.mp hm))
  -- A rune of rs that is no space stays, so the trimmed text is longer than as.
  obtain ⟨r,hm⟩ := exists_mem_of_ne_nil _ hr
  have hp := length_pos_iff.mpr (hn r (mem_reverse.mp ((dropWhile_sublist _).mem hm)))
  have hs := (sublist_flatten_of_mem (mem_reverse.mpr hm)).length_le
  have hl := congrArg length h
  have hle := (IsPrefix.flatten ( rdropWhile_prefix isSpace (as.dropWhile isSpace))).length_le
  rw [reverse_append,reverse_reverse,flatten_append,length_append] at hl
  unfold trim at hl
  omega

theorem trimSpace_eq_nil_iff {s : List UInt8} :
    trimSpace s = [] ↔ ∀ r ∈ runes s, isSpace r = true :=
  trim_flatten_eq_nil_iff fun _ => ne_nil_of_mem_runes

theorem trimSpace_append_line_iff (a b : List UInt8) :
    trimSpace (a ++ 13 :: 10 :: b) = trimSpace a ↔ trimSpace b = [] := by
  have hr : runes (10 :: b) = [10] :: runes b := runes_cons (by decide) b
  have hb : ∀ r ∈ [13] :: [10] :: runes b, r ≠ [] :=
    forall_mem_cons.mpr ⟨nofun,hr ▸ fun _ => ne_nil_of_mem_runes⟩
  rw [trimSpace,runes_append,hr,trimSpace,trim_append_flatten_iff hb,trimSpace_eq_nil_iff]
  simp [isSpace,spaces]

end GoBytes
