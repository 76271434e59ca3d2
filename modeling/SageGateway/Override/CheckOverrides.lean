import SageGateway.Override.Seam

namespace SageGateway

structure CheckCodec (Spec Block : Type) where
  known : GoString → Bool
  block : GoString → Spec → Option Block
  buildsClean : Block → Bool
  marshal : Spec → GoString
  unmarshal : GoString → Option Spec
  unmarshal_marshal : ∀ id spec, (unmarshal (marshal spec)).bind (block id) = block id spec

structure AdminBlock (Block : Type) where
  block : Block
  raw : GoString
  deriving DecidableEq

namespace CheckOverrides

variable {Spec Block : Type} (C : CheckCodec Spec Block)

def checkOverrideSpace : GoString := "health_checks/".toList

def key (id : GoString) : GoString := checkOverrideSpace ++ id

def decode (id raw : GoString) : Option (AdminBlock Block) :=
  ((C.unmarshal raw).bind (C.block id)).map fun block => ⟨block,raw⟩

def admits (id : GoString) (spec : Spec) : Bool :=
  C.known id && (C.block id spec).any C.buildsClean

def set (admin : GoMap GoString (AdminBlock Block)) (id : GoString) (spec : Spec) :
    GoMap GoString (AdminBlock Block) :=
  match C.block id spec with
  | some block => admin.put id ⟨block,C.marshal spec⟩
  | none => admin

def remove (admin : GoMap GoString (AdminBlock Block)) (id : GoString) :
    GoMap GoString (AdminBlock Block) :=
  if admin.has id then admin.del id else admin

def persisted (admin : GoMap GoString (AdminBlock Block)) (id raw : GoString) :
    Option (AdminBlock Block) :=
  match admin.get id with
  | some cur => if cur.raw = raw then some cur else decode C id raw
  | none => decode C id raw

def addPersisted (admin next : GoMap GoString (AdminBlock Block)) (row : GoString × GoString) :
    GoMap GoString (AdminBlock Block) :=
  let id := OverrideStore.trim checkOverrideSpace row.1
  match persisted C admin id row.2 with
  | some block => next.put id block
  | none => next

def changed (admin next : GoMap GoString (AdminBlock Block)) : Bool :=
  next.len != admin.len ||
    next.toList.any fun e => !(admin.get e.1).any fun cur => cur.raw == e.2.raw

def applyPersisted (admin : GoMap GoString (AdminBlock Block))
    (order : List (GoString × GoString)) : GoMap GoString (AdminBlock Block) :=
  let next := order.foldl (addPersisted C admin) ∅
  if changed admin next then next else admin

def Sound (admin : GoMap GoString (AdminBlock Block)) : Prop :=
  ∀ id b, admin.get id = some b → decode C id b.raw = some b

variable {C} {admin next : GoMap GoString (AdminBlock Block)} {id raw : GoString}

theorem key_injective : Function.Injective key := fun _ _ h => List.append_cancel_left h

variable {b : AdminBlock Block} {spec : Spec}

theorem raw_of_decode (h : decode C id raw = some b) : b.raw = raw := by
  obtain ⟨block,-,rfl⟩ := Option.map_eq_some_iff.mp h
  rfl

theorem decode_marshal {block : Block} (h : C.block id spec = some block) :
    decode C id (C.marshal spec) = some ⟨block,C.marshal spec⟩ := by
  rw [decode,C.unmarshal_marshal,h]
  rfl

theorem block_of_admits (h : admits C id spec = true) :
    ∃ block, C.block id spec = some block := by
  obtain ⟨-,ha⟩ := Bool.and_eq_true_iff.mp h
  cases hb : C.block id spec with
  | none =>
    rw [hb] at ha
    cases ha
  | some block => exact ⟨block,rfl⟩

theorem set_eq {block : Block} (h : C.block id spec = some block) :
    set C admin id spec = admin.put id ⟨block,C.marshal spec⟩ := by
  rw [set,h]

theorem get_set_ne (spec : Spec) {j : GoString} (hne : j ≠ id) :
    (set C admin id spec).get j = admin.get j := by
  unfold set
  split
  · exact GoMap.get_put_ne _ _ hne
  · rfl

theorem get_remove (j : GoString) :
    (remove admin id).get j = if j = id then none else admin.get j := by
  unfold remove
  split
  · exact GoMap.get_del _ _ _
  · next hh =>
    split
    · next heq =>
      subst heq
      exact Option.not_isSome_iff_eq_none.mp hh
    · rfl

section

variable (hsound : Sound C admin)

include hsound

theorem persisted_eq (h : decode C id raw = some b) : persisted C admin id raw = some b := by
  unfold persisted
  split
  · next cur hc =>
    split
    · next heq =>
      have hd := hsound id cur hc
      rw [heq] at hd
      exact hd.symm.trans h
    · exact h
  · exact h

theorem get_addPersisted (h : decode C id raw = some b) (j : GoString) :
    (addPersisted C admin next (key id,raw)).get j = if j = id then some b else next.get j := by
  unfold addPersisted
  dsimp only
  rw [key,OverrideStore.trim_append,persisted_eq hsound h]
  exact GoMap.get_put _ _ _ _

theorem sound_addPersisted (hn : Sound C next)
    (h : decode C id raw = some b) : Sound C (addPersisted C admin next (key id,raw)) := by
  intro j d hg
  rw [get_addPersisted hsound h] at hg
  split at hg
  · next heq =>
    cases hg
    rwa [heq,raw_of_decode h]
  · exact hn j d hg

theorem get_eq_of_not_changed (hn : Sound C next)
    (h : changed admin next = false) (j : GoString) : next.get j = admin.get j := by
  obtain ⟨hl,ha⟩ := Bool.or_eq_false_iff.mp h
  apply GoMap.get_eq_of_subset ?_ (bne_eq_false_iff_eq.mp hl).ge
  intro i b hg
  have hm := (GoMap.iterates_toList next).mem_iff i b |>.mpr hg
  have hr : (admin.get i).any (fun cur => cur.raw == b.raw) = true := by
    simpa using List.any_eq_false.mp ha (i,b) hm
  cases hc : admin.get i with
  | none =>
    rw [hc] at hr
    cases hr
  | some cur =>
    rw [hc] at hr
    have hra : cur.raw = b.raw := beq_iff_eq.mp hr
    have hd := hsound i cur hc
    rw [hra,hn i b hg] at hd
    exact hd.symm

theorem applyPersisted_spec {entries : GoMap GoString GoString}
    {order : List (GoString × GoString)} (ho : entries.Iterates order)
    (he : ∀ name raw, entries.get name = some raw →
      ∃ k, name = key k ∧ (decode C k raw).isSome) :
    Sound C (applyPersisted C admin order) ∧ ∀ k,
      (applyPersisted C admin order).get k = (entries.get (key k)).bind (decode C k) := by
  obtain ⟨hn,hg⟩ := ho.foldl_entries (f := addPersisted C admin) key_injective
    (fun l j v b hl hb => ⟨sound_addPersisted hsound hl hb,get_addPersisted hsound hb⟩)
    he (l := ∅) (fun _ _ h => by cases h)
  have hh : ∀ k, (order.foldl (addPersisted C admin) ∅).get k =
      (entries.get (key k)).bind (decode C k) := by
    intro k
    refine (hg k).trans ?_
    cases entries.get (key k) <;> rfl
  unfold applyPersisted
  dsimp only
  split
  · exact ⟨hn,hh⟩
  · next hc =>
    have hs := get_eq_of_not_changed hsound hn (Bool.eq_false_iff.mpr hc)
    exact ⟨hsound,fun k => (hs k).symm.trans (hh k)⟩

end

variable (C) in
def seam : OverrideSeam GoString Spec (AdminBlock Block) (GoMap GoString (AdminBlock Block)) where
  keySpace := checkOverrideSpace
  key := key
  encode := C.marshal
  decode := decode C
  admits := admits C
  set admin _ := set C admin
  remove := remove
  applyPersisted admin _ := applyPersisted C admin
  held := GoMap.get
  Sound := Sound C
  key_listed := OverrideStore.listed_append checkOverrideSpace
  key_injective := key_injective
  decode_encode id spec h := by
    obtain ⟨block,hblock⟩ := block_of_admits h
    exact ⟨_,decode_marshal hblock⟩
  sound_set admin _ id spec hsound h := by
    obtain ⟨block,hblock⟩ := block_of_admits h
    intro j b hget
    rw [set_eq hblock] at hget
    rcases GoMap.get_put_eq_some.mp hget with ⟨rfl,rfl⟩ | ⟨-,hold⟩
    · exact decode_marshal hblock
    · exact hsound j b hold
  held_set_self admin _ id spec h := by
    obtain ⟨block,hblock⟩ := block_of_admits h
    rw [set_eq hblock,GoMap.get_put_self,decode_marshal hblock]
  held_set_ne admin _ id spec j hne := get_set_ne spec hne
  sound_remove admin id hsound := by
    intro j b hget
    rw [get_remove] at hget
    split at hget
    · cases hget
    · exact hsound j b hget
  held_remove_self admin id := (get_remove id).trans (if_pos rfl)
  held_remove_ne admin id j hne := (get_remove j).trans (if_neg hne)
  sound_applyPersisted _ _ _ _ hsound horder hentries :=
    (applyPersisted_spec hsound horder hentries).1
  held_applyPersisted _ _ _ _ hsound horder hentries :=
    (applyPersisted_spec hsound horder hentries).2

end CheckOverrides

end SageGateway
