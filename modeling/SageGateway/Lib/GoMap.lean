import Mathlib.Algebra.BigOperators.Group.List.Basic
import Mathlib.Data.Finset.Card
import Mathlib.Data.List.AList

abbrev GoMap (K V : Type) := AList (fun _ : K => V)

namespace GoMap

open List Option

variable {K V : Type} [DecidableEq K]

def get (m : GoMap K V) (k : K) : Option V := AList.lookup k m

def put (m : GoMap K V) (k : K) (v : V) : GoMap K V := AList.insert k v m

def del (m : GoMap K V) (k : K) : GoMap K V := AList.erase k m

def len (m : GoMap K V) : Nat := m.entries.length

def has (m : GoMap K V) (k : K) : Bool := (get m k).isSome

@[simp] theorem get_empty (k : K) : get (∅ : GoMap K V) k = none := AList.lookup_empty k

theorem get_put (m : GoMap K V) (k j : K) (v : V) :
    get (put m k v) j = if j = k then some v else get m j := by
  split_ifs with h
  · subst h
    exact AList.lookup_insert m
  · exact AList.lookup_insert_ne h

@[simp] theorem get_put_self (m : GoMap K V) (k : K) (v : V) : get (put m k v) k = some v := by
  simp [get_put]

variable {m : GoMap K V} {j k : K} {l : List (K × V)} {v : V}

theorem get_put_ne (m : GoMap K V) (v : V) (h : j ≠ k) :
    get (put m k v) j = get m j := by simp [get_put,h]

theorem get_del (m : GoMap K V) (k j : K) :
    get (del m k) j = if j = k then none else get m j := by
  split_ifs with h
  · subst h
    exact AList.lookup_erase j m
  · exact AList.lookup_erase_ne h

@[simp] theorem get_del_self (m : GoMap K V) (k : K) : get (del m k) k = none := by
  simp [get_del]

theorem get_del_ne (m : GoMap K V) (h : j ≠ k) : get (del m k) j = get m j := by
  simp [get_del,h]

theorem get_put_eq_some {w : V} :
    get (put m k v) j = some w ↔ (j = k ∧ v = w) ∨ (j ≠ k ∧ get m j = some w) := by
  rw [get_put]
  split_ifs with h <;> simp [h]

theorem get_del_eq_some {w : V} :
    get (del m k) j = some w ↔ j ≠ k ∧ get m j = some w := by
  rw [get_del]
  split_ifs with h <;> simp [h]

theorem get_of_len_zero (h : len m = 0) (k : K) : get m k = none := by
  have he : m = ∅ := AList.ext (eq_nil_of_length_eq_zero h)
  rw [he,get_empty]

theorem get_foldl_del_eq_some {ks : List K} :
    get (ks.foldl del m) k = some v ↔ k ∉ ks ∧ get m k = some v := by
  induction ks generalizing m with
  | nil => simp
  | cons j ks ih =>
    rw [foldl_cons,ih,get_del_eq_some,mem_cons,not_or]
    exact ⟨fun ⟨hks,hj,hm⟩ => ⟨⟨hj,hks⟩,hm⟩,fun ⟨⟨hj,hks⟩,hm⟩ => ⟨hks,hj,hm⟩⟩

theorem get_foldl_del (m : GoMap K V) (ks : List K) (k : K) [Decidable (k ∈ ks)] :
    get (ks.foldl del m) k = if k ∈ ks then none else get m k := by
  ext v
  rw [get_foldl_del_eq_some]
  split
  · simp [*]
  · simp [*]

theorem has_iff (m : GoMap K V) (k : K) : has m k = true ↔ ∃ v, get m k = some v :=
  isSome_iff_exists

theorem mem_entries (m : GoMap K V) (k : K) (v : V) :
    (⟨k,v⟩ : Sigma fun _ : K => V) ∈ m.entries ↔ get m k = some v := by
  rw [← mem_dlookup_iff m.nodupKeys]
  exact mem_def

def filter (p : K → V → Bool) (m : GoMap K V) : GoMap K V where
  entries := m.entries.filter (fun e => p e.1 e.2)
  nodupKeys := m.nodupKeys.sublist List.filter_sublist

theorem get_filter (p : K → V → Bool) (m : GoMap K V) (k : K) :
    get (filter p m) k = (get m k).filter (p k) := by
  ext v
  rw [← mem_entries]
  have h := mem_entries m k v
  simp [filter,h]

def filterMap (f : K → V → Option V) (m : GoMap K V) : GoMap K V where
  entries := m.entries.filterMap fun e => (f e.1 e.2).map (Sigma.mk e.1)
  nodupKeys := by
    refine List.Nodup.sublist ?_ m.nodupKeys
    induction m.entries with
    | nil => exact .slnil
    | cons e entries ih =>
      rw [List.filterMap_cons]
      cases f e.1 e.2 with
      | none => exact ih.cons _
      | some v => exact ih.cons_cons _

theorem get_filterMap (f : K → V → Option V) (m : GoMap K V) (k : K) :
    get (filterMap f m) k = (get m k).bind (f k) := by
  ext v
  rw [← mem_entries]
  simp only [filterMap,mem_filterMap,map_eq_some_iff,bind_eq_some_iff]
  constructor
  · rintro ⟨⟨j,w⟩,hm,u,hu,heq⟩
    cases heq
    exact ⟨w,(mem_entries m j w).mp hm,hu⟩
  · rintro ⟨w,hw,hv⟩
    exact ⟨⟨k,w⟩,(mem_entries m k w).mpr hw,v,hv,rfl⟩

def Iterates (m : GoMap K V) (order : List (K × V)) : Prop :=
  (order.map fun e => (⟨e.1,e.2⟩ : Sigma fun _ : K => V)).Perm m.entries

instance [DecidableEq V] (m : GoMap K V) (order : List (K × V)) : Decidable (Iterates m order) :=
  inferInstanceAs (Decidable (List.Perm _ _))

theorem Iterates.mem_iff {order : List (K × V)} (h : Iterates m order) (k : K)
    (v : V) : (k,v) ∈ order ↔ get m k = some v := by
  rw [← mem_entries,← List.Perm.mem_iff h]
  simp

def putAll (m : GoMap K V) (l : List (K × V)) : GoMap K V := l.foldl (fun m e => put m e.1 e.2) m

theorem putAll_append (m : GoMap K V) (l l' : List (K × V)) :
    putAll m (l ++ l') = putAll (putAll m l) l' := List.foldl_append

theorem get_putAll_of_notMem (h : k ∉ l.map Prod.fst) :
    get (putAll m l) k = get m k := by
  induction l generalizing m with
  | nil => rfl
  | cons e l ih =>
    obtain ⟨hk,hl⟩ := not_or.mp (fun hm => h (mem_cons.mpr hm))
    exact (ih hl).trans (get_put_ne m e.2 hk)

theorem get_putAll_of_mem
    (hn : (l.map Prod.fst).Nodup) (h : (k,v) ∈ l) : get (putAll m l) k = some v := by
  induction l generalizing m with
  | nil => cases h
  | cons e l ih =>
    obtain ⟨he,hl⟩ := nodup_cons.mp hn
    rcases mem_cons.mp h with rfl | hm
    · exact (get_putAll_of_notMem he).trans (get_put_self m k v)
    · exact ih hl hm

theorem get_putAll_eq_some
    (h : get (putAll m l) k = some v) : get m k = some v ∨ (k,v) ∈ l := by
  induction l generalizing m with
  | nil => exact .inl h
  | cons e l ih =>
    rcases ih h with hp | hm
    · rcases get_put_eq_some.mp hp with ⟨rfl,rfl⟩ | ⟨-,hold⟩
      · exact .inr (.head _)
      · exact .inl hold
    · exact .inr (.tail _ hm)

theorem get_putAll_const (m : GoMap K V) (ks : List K) (v : V) (k : K) :
    get (putAll m (ks.map fun j => (j,v))) k = if k ∈ ks then some v else get m k := by
  induction ks generalizing m with
  | nil => rfl
  | cons j ks ih =>
    refine (ih (put m j v)).trans ?_
    rw [get_put]
    by_cases hk : k ∈ ks <;> by_cases hj : k = j <;> simp [hk,hj]

omit [DecidableEq K] in
theorem Iterates.nodup {m : GoMap K V} {order : List (K × V)} (h : Iterates m order) :
    (order.map Prod.fst).Nodup := by
  have hk := (List.Perm.map Sigma.fst h).nodup_iff.mpr m.nodupKeys
  rwa [List.map_map] at hk

def toList (m : GoMap K V) : List (K × V) := m.entries.map fun e => (e.1,e.2)

omit [DecidableEq K] in
theorem iterates_toList (m : GoMap K V) : Iterates m (toList m) := by
  unfold Iterates toList
  rw [List.map_map]
  exact .of_eq (List.map_id _)

section Rows

variable {J W : Type} [DecidableEq J] {f : GoMap J W → K × V → GoMap J W} (name : K → J)

omit [DecidableEq K] in
theorem get_foldl_of_notMem (ho : ∀ m row j, j ≠ name row.1 → get (f m row) j = get m j)
    {rows : List (K × V)} {j : J} (h : ∀ row ∈ rows, j ≠ name row.1) (m : GoMap J W) :
    get (rows.foldl f m) j = get m j := by
  induction rows generalizing m with
  | nil => rfl
  | cons row rows ih =>
    rw [foldl_cons,ih (fun r hr => h r (mem_cons_of_mem row hr))]
    exact ho m row j (h row (.head _))

omit [DecidableEq K] in
theorem get_foldl_of_mem {name : K → J} (hna : Function.Injective name)
    (ho : ∀ m row j, j ≠ name row.1 → get (f m row) j = get m j)
    {update : V → Option W → Option W}
    (hs : ∀ m row, get (f m row) (name row.1) = update row.2 (get m (name row.1)))
    {rows : List (K × V)} (hn : (rows.map Prod.fst).Nodup) {k : K} {v : V} (h : (k,v) ∈ rows)
    (m : GoMap J W) : get (rows.foldl f m) (name k) = update v (get m (name k)) := by
  induction rows generalizing m with
  | nil => cases h
  | cons row rows ih =>
    obtain ⟨hro,hrw⟩ := nodup_cons.mp hn
    rcases mem_cons.mp h with rfl | hm
    · rw [foldl_cons,get_foldl_of_notMem name ho,hs]
      intro r hr heq
      exact hro (List.mem_map.mpr ⟨r,hr,(hna heq).symm⟩)
    · have hne : name k ≠ name row.1 := fun heq =>
        hro (List.mem_map.mpr ⟨(k,v),hm,hna heq⟩)
      rw [foldl_cons,ih hrw hm,ho m row _ hne]

end Rows

section Entries

variable {L R J W : Type} [DecidableEq J] {held : L → J → Option W} {Sound : L → Prop}
  {f : L → R × V → L} {key : J → R} {decode : J → V → Option W}

section

variable (hkey : Function.Injective key)
  (hstep : ∀ l j v w, Sound l → decode j v = some w → Sound (f l (key j,v)) ∧
    ∀ i, held (f l (key j,v)) i = if i = j then some w else held l i)

include hkey hstep

theorem foldl_entries {rows : List (R × V)}
    (hro : ∀ row ∈ rows, ∃ j w, row.1 = key j ∧ decode j row.2 = some w)
    (hn : (rows.map Prod.fst).Nodup) {l : L} (hl : Sound l) :
    Sound (rows.foldl f l) ∧
      (∀ j v, (key j,v) ∈ rows → held (rows.foldl f l) j = decode j v) ∧
      ∀ j, key j ∉ rows.map Prod.fst → held (rows.foldl f l) j = held l j := by
  induction rows generalizing l with
  | nil => exact ⟨hl,fun _ _ h => (by cases h),fun _ _ => rfl⟩
  | cons row rows ih =>
    obtain ⟨hrw,hno⟩ := nodup_cons.mp hn
    obtain ⟨r,v⟩ := row
    obtain ⟨j,w,rfl,hw⟩ := hro _ (.head _)
    obtain ⟨hs,hh⟩ := hstep l j v w hl hw
    obtain ⟨he,hm,hnt⟩ := ih (fun row hr => hro row (.tail _ hr))
      hno hs
    refine ⟨he,?_,?_⟩
    · intro i u hi
      rcases mem_cons.mp hi with heq | hi
      · obtain ⟨hij,rfl⟩ := Prod.mk.inj heq
        obtain rfl := hkey hij
        exact (hnt i hrw).trans ((hh i).trans ((if_pos rfl).trans hw.symm))
      · exact hm i u hi
    · intro i hi
      obtain ⟨hne,hi⟩ := not_or.mp (mem_cons.not.mp hi)
      exact (hnt i hi).trans ((hh i).trans (if_neg fun heq => hne (congrArg key heq)))

theorem Iterates.foldl_entries [DecidableEq R]
    {entries : GoMap R V} {order : List (R × V)} (ho : Iterates entries order)
    (he : ∀ r v, get entries r = some v → ∃ j, r = key j ∧ (decode j v).isSome)
    {l : L} (hl : Sound l) :
    Sound (order.foldl f l) ∧
      ∀ j, held (order.foldl f l) j = (get entries (key j)).elim (held l j) (decode j) := by
  have hro : ∀ row ∈ order, ∃ j w, row.1 = key j ∧ decode j row.2 = some w := by
    intro row hm
    obtain ⟨j,hj,hso⟩ := he row.1 row.2 ((ho.mem_iff _ _).mp hm)
    obtain ⟨w,hw⟩ := isSome_iff_exists.mp hso
    exact ⟨j,w,hj,hw⟩
  obtain ⟨hs,hm,hn⟩ := GoMap.foldl_entries hkey hstep hro ho.nodup hl
  refine ⟨hs,fun j => ?_⟩
  cases hg : get entries (key j) with
  | some v => exact hm j v ((ho.mem_iff _ _).mpr hg)
  | none =>
    apply hn j
    intro hin
    obtain ⟨⟨r,v⟩,hrw,hr⟩ := List.mem_map.mp hin
    obtain rfl : r = key j := hr
    cases hg.symm.trans ((ho.mem_iff _ _).mp hrw)

end

end Entries

theorem get_eq_of_subset {m m' : GoMap K V}
    (hs : ∀ k v, get m k = some v → get m' k = some v) (hl : len m' ≤ len m) (k : K) :
    get m k = get m' k := by
  have hin : m.entries ⊆ m'.entries := by
    rintro ⟨j,v⟩ hm
    exact (mem_entries m' j v).mpr (hs j v ((mem_entries m j v).mp hm))
  have hp := (subperm_of_subset m.nodupKeys.nodup hin).perm_of_length_le hl
  ext v
  rw [← mem_entries,← mem_entries]
  exact hp.mem_iff

theorem len_del_le (m : GoMap K V) (k : K) : len (del m k) ≤ len m :=
  (kerase_sublist k m.entries).length_le

theorem len_put_le (m : GoMap K V) (k : K) (v : V) : len (put m k v) ≤ len m + 1 := by
  exact Nat.succ_le_succ (len_del_le m k)

theorem len_le_card {m : GoMap K V} {s : Finset K} (h : ∀ k v, get m k = some v → k ∈ s) :
    len m ≤ s.card := by
  have hl : len m = m.keys.toFinset.card := by
    rw [toFinset_card_of_nodup m.keys_nodup]
    exact (length_map _).symm
  rw [hl]
  refine Finset.card_le_card fun k hk => ?_
  obtain ⟨v,hv⟩ := isSome_iff_exists.mp
    (AList.lookup_isSome.mpr (AList.mem_keys.mpr (List.mem_toFinset.mp hk)))
  exact h k v hv

section Total

variable {M : Type} [AddCommMonoid M]

def total (g : K → V → M) (m : GoMap K V) : M := (m.entries.map fun e => g e.1 e.2).sum

theorem entries_del (m : GoMap K V) (k : K) : (del m k).entries = m.entries.kerase k := rfl

section

variable (g : K → V → M)

theorem total_put (m : GoMap K V) (k : K) (v : V) :
    total g (put m k v) = g k v + total g (del m k) := by
  simp [total,put,entries_del]

theorem total_del_none (h : get m k = none) : total g (del m k) = total g m := by
  have hk : k ∉ m.entries.keys := AList.lookup_eq_none.mp h
  simp [total,entries_del,kerase_of_notMem_keys hk]

theorem total_del_some (h : get m k = some v) : total g m = g k v + total g (del m k) := by
  have hm := (mem_entries m k v).mpr h
  obtain ⟨w,l₁,l₂,hn,heq,he⟩ := exists_of_kerase (mem_keys_of_mem hm)
  have hw : get m k = some w := by
    rw [← mem_entries,heq]
    simp
  rw [h,some_inj] at hw
  subst hw
  simp [total,entries_del,he]
  rw [heq]
  simpa using add_left_comm _ _ _

theorem total_del_add (m : GoMap K V) (k : K) :
    total g (del m k) + (get m k).elim 0 (g k) = total g m := by
  cases h : get m k with
  | none => rw [elim_none,add_zero,total_del_none g h]
  | some v => rw [elim_some,total_del_some g h,add_comm]

theorem total_put_add (m : GoMap K V) (k : K) (v : V) :
    total g (put m k v) + (get m k).elim 0 (g k) = g k v + total g m := by
  rw [total_put,add_assoc,total_del_add]

end

omit [DecidableEq K] in
theorem Iterates.total (g : K → V → M) {m : GoMap K V} {order : List (K × V)}
    (h : Iterates m order) : GoMap.total g m = (order.map fun e => g e.1 e.2).sum := by
  have hp := List.Perm.sum_eq (List.Perm.map (fun e => g e.1 e.2) h)
  rw [List.map_map] at hp
  exact hp.symm

theorem total_single (f : V → M) (m : GoMap K V) (k : K) :
    total (fun j v => if j = k then f v else 0) m = (get m k).elim 0 f := by
  have hr : total (fun j v => if j = k then f v else 0) (del m k) = 0 := by
    refine sum_eq_zero fun x hx => ?_
    obtain ⟨⟨j,v⟩,hm,rfl⟩ := List.mem_map.mp hx
    have hg := (mem_entries (del m k) j v).mp hm
    refine if_neg fun (hj : j = k) => ?_
    rw [hj,get_del_self] at hg
    cases hg
  rw [← total_del_add _ m k,hr]
  simp

end Total

section Count

def count (p : V → Bool) (m : GoMap K V) : Nat := m.entries.countP fun e => p e.2

omit [DecidableEq K] in
theorem count_eq_total (p : V → Bool) (m : GoMap K V) :
    count p m = total (fun _ v => (p v).toNat) m := by
  unfold count total
  induction m.entries with
  | nil => rfl
  | cons e entries ih =>
    rw [map_cons,sum_cons,← ih]
    cases hp : p e.2 <;> simp [hp,Nat.add_comm]

variable {p : V → Bool}

theorem count_put_some (p : V → Bool) (h : get m k = some v)
    (w : V) : count p (put m k w) + (p v).toNat = (p w).toNat + count p m := by
  have ht := total_put_add (fun (_ : K) v => (p v).toNat) m k w
  rw [h] at ht
  rwa [count_eq_total,count_eq_total]

theorem count_put_none (p : V → Bool) (h : get m k = none) (w : V) :
    count p (put m k w) = (p w).toNat + count p m := by
  have ht := total_put_add (fun (_ : K) v => (p v).toNat) m k w
  rw [h] at ht
  rwa [count_eq_total,count_eq_total]

theorem count_pos (h : get m k = some v)
    (hv : p v = true) : 0 < count p m :=
  countP_pos_iff.mpr ⟨_,(mem_entries m k v).mpr h,hv⟩

theorem count_eq_zero
    (h : ∀ k v, get m k = some v → p v = false) : count p m = 0 := by
  refine countP_eq_zero.mpr fun e he => ?_
  have hf := h e.1 e.2 ((mem_entries m e.1 e.2).mp he)
  simp [hf]

theorem keys_of_count (p : V → Bool) (m : GoMap K V) :
    ∃ ks : List K, ks.Nodup ∧ ks.length = count p m ∧
      ∀ k ∈ ks, ∃ v, get m k = some v ∧ p v = true := by
  refine ⟨(m.entries.filter fun e => p e.2).map Sigma.fst,?_,?_,fun k hk => ?_⟩
  · exact m.nodupKeys.sublist filter_sublist
  · rw [length_map,← countP_eq_length_filter]
    rfl
  · obtain ⟨e,he,rfl⟩ := List.mem_map.mp hk
    obtain ⟨hm,hp⟩ := mem_filter.mp he
    exact ⟨e.2,(mem_entries m e.1 e.2).mp hm,hp⟩

theorem count_lt_count {q : V → Bool} (h : get m k = some v)
    (hle : ∀ w, q w = true → p w = true) (hp : p v = true) (hq : q v = false) :
    count q m < count p m := by
  have hpm := total_del_some (fun (_ : K) v => (p v).toNat) h
  have hqm := total_del_some (fun (_ : K) v => (q v).toNat) h
  rw [← count_eq_total,← count_eq_total,hp,Bool.toNat_true] at hpm
  rw [← count_eq_total,← count_eq_total,hq,Bool.toNat_false] at hqm
  have hr : count q (del m k) ≤ count p (del m k) := countP_mono_left fun e _ => hle e.2
  omega

end Count

end GoMap
