import SageGateway.Override.Seam

namespace SageGateway

open Option GoMap

structure TuningValue where
  int : Int
  dur : Int
  raw : GoString
  deriving DecidableEq

structure KnobParser where
  parse : GoString → GoString → Option TuningValue
  slash_free : ∀ name raw v, parse name raw = some v → '/' ∉ name

structure KnobKey where
  name : GoString
  serviceID : GoString
  slash_free : '/' ∉ name
  deriving DecidableEq

structure TuningOverride where
  value : TuningValue
  setAt : Int
  deriving DecidableEq

structure TuningStore where
  global : GoMap GoString TuningOverride
  service : GoMap GoString (GoMap GoString TuningOverride)

namespace TuningStore

def empty : TuningStore := ⟨∅,∅⟩

def overrideSpace : GoString := "tuning/".toList

def overrideKey (name serviceID : GoString) : GoString :=
  if serviceID = [] then overrideSpace ++ name else overrideSpace ++ (name ++ '/' :: serviceID)

def lookupOverride (s : TuningStore) (name serviceID : GoString) : Option TuningOverride :=
  if serviceID = [] then s.global.get name else (s.service.get name).bind fun m => m.get serviceID

def put (s : TuningStore) (name serviceID : GoString) (o : TuningOverride) : TuningStore :=
  if serviceID = [] then { s with global := s.global.put name o }
  else
    { s with service := s.service.put name (((s.service.get name).getD ∅).put serviceID o) }

def set (P : KnobParser) (s : TuningStore) (now : Int) (name serviceID raw : GoString) :
    TuningStore :=
  match P.parse name raw with
  | some value => s.put name serviceID ⟨value,now⟩
  | none => s

def delete (s : TuningStore) (name serviceID : GoString) : TuningStore :=
  if serviceID = [] then { s with global := s.global.del name }
  else
    match s.service.get name with
    | some overrides =>
        let rest := overrides.del serviceID
        if rest.len = 0 then { s with service := s.service.del name }
        else { s with service := s.service.put name rest }
    | none => s

def splitKey (key : GoString) : GoString × GoString :=
  let rest := OverrideStore.trim overrideSpace key
  (GoString.cut '/' rest).getD (rest,[])

def addPersisted (P : KnobParser) (prev : TuningStore) (now : Int) (s : TuningStore)
    (row : GoString × GoString) : TuningStore :=
  let (name,serviceID) := splitKey row.1
  match P.parse name row.2 with
  | some value =>
      let setAt := match prev.lookupOverride name serviceID with
        | some old => if old.value = value then old.setAt else now
        | none => now
      s.put name serviceID ⟨value,setAt⟩
  | none => s

def applyPersisted (P : KnobParser) (s : TuningStore) (now : Int)
    (order : List (GoString × GoString)) : TuningStore :=
  order.foldl (addPersisted P s now) empty

def lookup (s : TuningStore) (name serviceID : GoString) : Option TuningValue :=
  match (s.service.get name).bind fun m => m.get serviceID with
  | some o => some o.value
  | none => (s.global.get name).map TuningOverride.value

def duration (s : TuningStore) (name serviceID : GoString) (base : Int) : Int :=
  ((s.lookup name serviceID).map TuningValue.dur).getD base

def int (s : TuningStore) (name serviceID : GoString) (base : Int) : Int :=
  ((s.lookup name serviceID).map TuningValue.int).getD base

def held (s : TuningStore) (k : KnobKey) : Option TuningValue :=
  (s.lookupOverride k.name k.serviceID).map TuningOverride.value

def knobKey (k : KnobKey) : GoString := overrideKey k.name k.serviceID

variable {s : TuningStore}

variable {name serviceID : GoString} {P : KnobParser}

theorem splitKey_overrideKey (h : '/' ∉ name) (serviceID : GoString) :
    splitKey (overrideKey name serviceID) = (name,serviceID) := by
  unfold splitKey overrideKey
  dsimp only
  split
  · next he =>
    rw [OverrideStore.trim_append,GoString.cut_of_notMem h,he]
    rfl
  · rw [OverrideStore.trim_append,GoString.cut_append h]
    rfl

theorem knobKey_injective : Function.Injective knobKey := by
  intro k j h
  obtain ⟨name,serviceID,hf⟩ := k
  obtain ⟨name',serviceID',hf'⟩ := j
  have hs := congrArg splitKey h
  rw [knobKey,knobKey,splitKey_overrideKey hf,splitKey_overrideKey hf'] at hs
  obtain ⟨rfl,rfl⟩ := Prod.mk.inj hs
  rfl

theorem knobKey_listed (k : KnobKey) : overrideSpace.isPrefixOf (knobKey k) = true := by
  unfold knobKey overrideKey
  split <;> exact OverrideStore.listed_append overrideSpace _

theorem lookupOverride_put (name serviceID : GoString) (o : TuningOverride)
    (name' serviceID' : GoString) :
    (s.put name serviceID o).lookupOverride name' serviceID' =
      if name' = name ∧ serviceID' = serviceID then some o
      else s.lookupOverride name' serviceID' := by
  unfold put lookupOverride
  by_cases hg : serviceID = []
  · subst hg
    by_cases hg' : serviceID' = []
    · simp [hg',get_put]
    · simp [hg']
  · rw [if_neg hg]
    by_cases hg' : serviceID' = []
    · have hne : serviceID ≠ [] := hg
      simp [hg',Ne.symm hne]
    · simp [if_neg hg',get_put]
      by_cases hn : name' = name
      · subst hn
        by_cases hid : serviceID' = serviceID
        · simp [hid,get_put_self]
        · cases s.service.get name' <;> simp [hid,get_put_ne _ _ hid]
      · simp [hn]

theorem get_service_put (name serviceID : GoString) (o : TuningOverride) (name' : GoString) :
    ((s.put name serviceID o).service.get name').bind (fun m => m.get []) =
      (s.service.get name').bind fun m => m.get [] := by
  unfold put
  split
  · rfl
  · next hid =>
    rw [get_put]
    split
    · next heq =>
      rw [heq,bind_some,get_put_ne _ _ (Ne.symm hid)]
      cases s.service.get name <;> rfl
    · rfl

theorem get_service_delete (hid : serviceID ≠ [])
    (name' serviceID' : GoString) :
    ((s.delete name serviceID).service.get name').bind (fun m => m.get serviceID') =
      if name' = name ∧ serviceID' = serviceID then none
      else (s.service.get name').bind fun m => m.get serviceID' := by
  unfold delete
  rw [if_neg hid]
  cases hg : s.service.get name with
  | none =>
    dsimp only
    split
    · next heq => rw [heq.1,hg,bind_none]
    · rfl
  | some overrides =>
    by_cases hn : name' = name
    · subst hn
      have hr : ((if (overrides.del serviceID).len = 0 then
          { s with service := s.service.del name' }
          else { s with service := s.service.put name' (overrides.del serviceID) } :
          TuningStore).service.get name').bind (fun m => m.get serviceID') =
          (overrides.del serviceID).get serviceID' := by
        split
        · next hl => rw [get_del_self,get_of_len_zero hl,bind_none]
        · rw [get_put_self,bind_some]
      refine hr.trans ?_
      rw [get_del,hg]
      simp
    · rw [if_neg fun h => hn h.1]
      dsimp only
      split
      · rw [get_del_ne _ hn]
      · rw [get_put_ne _ _ hn]

theorem global_delete (hid : serviceID ≠ []) :
    (s.delete name serviceID).global = s.global := by
  unfold delete
  rw [if_neg hid]
  dsimp only
  split
  · split <;> rfl
  · rfl

theorem lookupOverride_delete (name serviceID name' serviceID' : GoString) :
    (s.delete name serviceID).lookupOverride name' serviceID' =
      if name' = name ∧ serviceID' = serviceID then none
      else s.lookupOverride name' serviceID' := by
  unfold lookupOverride
  by_cases hid : serviceID = []
  · subst hid
    by_cases hi' : serviceID' = []
    · simp [delete,hi',get_del]
    · simp [delete,hi']
  · by_cases hi' : serviceID' = []
    · simp [hi',global_delete hid,Ne.symm hid]
    · rw [if_neg hi',if_neg hi']
      exact get_service_delete hid name' serviceID'

theorem eq_iff_name_serviceID (j k : KnobKey) :
    j.name = k.name ∧ j.serviceID = k.serviceID ↔ j = k := by
  obtain ⟨name',serviceID',hf'⟩ := j
  constructor
  · rintro ⟨rfl,rfl⟩
    rfl
  · rintro ⟨⟩
    exact ⟨rfl,rfl⟩

theorem held_put (k : KnobKey) (o : TuningOverride) (j : KnobKey) :
    (s.put k.name k.serviceID o).held j = if j = k then some o.value else s.held j := by
  unfold held
  rw [lookupOverride_put]
  simp [eq_iff_name_serviceID]
  split <;> rfl

theorem held_delete (k j : KnobKey) :
    (s.delete k.name k.serviceID).held j = if j = k then none else s.held j := by
  unfold held
  rw [lookupOverride_delete]
  simp [eq_iff_name_serviceID]
  split <;> rfl

theorem held_empty (k : KnobKey) : empty.held k = none := by
  unfold held lookupOverride
  split <;> rfl

theorem set_eq {raw : GoString} {now : Int} {v : TuningValue}
    (h : P.parse name raw = some v) :
    set P s now name serviceID raw = s.put name serviceID ⟨v,now⟩ := by
  rw [set,h]

theorem held_set_ne (P : KnobParser) (now : Int) {k j : KnobKey} (raw : GoString) (hne : j ≠ k) :
    (set P s now k.name k.serviceID raw).held j = s.held j := by
  unfold set
  split
  · exact (held_put k _ j).trans (if_neg hne)
  · rfl

theorem held_addPersisted (prev : TuningStore) (now : Int) {k : KnobKey}
    {raw : GoString} {v : TuningValue} (h : P.parse k.name raw = some v) (j : KnobKey) :
    (addPersisted P prev now s (knobKey k,raw)).held j = if j = k then some v else s.held j := by
  unfold addPersisted
  rw [knobKey,splitKey_overrideKey k.slash_free]
  dsimp only
  rw [h]
  exact held_put k _ j

theorem held_applyPersisted (now : Int) {entries : GoMap GoString GoString}
    {order : List (GoString × GoString)} (ho : entries.Iterates order)
    (he : ∀ name raw, entries.get name = some raw →
      ∃ k, name = knobKey k ∧ (P.parse k.name raw).isSome) (k : KnobKey) :
    (applyPersisted P s now order).held k =
      (entries.get (knobKey k)).bind fun raw => P.parse k.name raw := by
  have hs : ∀ (l : TuningStore) (j : KnobKey) v w, True → P.parse j.name v = some w →
      True ∧ ∀ i, (addPersisted P s now l (knobKey j,v)).held i =
        if i = j then some w else l.held i :=
    fun _ _ _ _ _ hw => ⟨trivial,held_addPersisted s now hw⟩
  obtain ⟨-,hh⟩ := ho.foldl_entries knobKey_injective hs he (l := empty) trivial
  refine (hh k).trans ?_
  cases entries.get (knobKey k) with
  | none => exact held_empty k
  | some raw => rfl

def seam (P : KnobParser) : OverrideSeam KnobKey GoString TuningValue TuningStore where
  keySpace := overrideSpace
  key := knobKey
  encode raw := raw
  decode k raw := P.parse k.name raw
  admits k raw := (P.parse k.name raw).isSome
  set s now k raw := set P s now k.name k.serviceID raw
  remove s k := s.delete k.name k.serviceID
  applyPersisted := applyPersisted P
  held := held
  Sound _ := True
  key_listed := knobKey_listed
  key_injective := knobKey_injective
  decode_encode _ _ h := Option.isSome_iff_exists.mp h
  sound_set _ _ _ _ _ _ := trivial
  held_set_self s now k raw h := by
    obtain ⟨v,hv⟩ := Option.isSome_iff_exists.mp h
    rw [set_eq hv,held_put,if_pos rfl,hv]
  held_set_ne _ now _ raw _ hne := held_set_ne P now raw hne
  sound_remove _ _ _ := trivial
  held_remove_self _ k := (held_delete k k).trans (if_pos rfl)
  held_remove_ne _ k j hne := (held_delete k j).trans (if_neg hne)
  sound_applyPersisted _ _ _ _ _ _ _ := trivial
  held_applyPersisted _ now _ _ _ horder hentries := held_applyPersisted now horder hentries

end TuningStore

end SageGateway
