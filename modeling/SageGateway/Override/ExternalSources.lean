import SageGateway.Override.Seam

namespace SageGateway

open List Option GoMap

structure SourceCodec (Source : Type) where
  setterFor : GoString → Bool
  validate : List Source → Bool
  encodeSources : List Source → GoString
  decodeSources : GoString → Option (List Source)
  decode_encode : ∀ sources, (sources = [] ∨ validate sources = true) →
    decodeSources (encodeSources sources) = some sources

structure ManagedSources (Source : Type) where
  configured : Option (List Source)
  override : List Source
  hasOverride : Bool
  overrideRaw : GoString

namespace ExternalSources

variable {Source : Type} (C : SourceCodec Source)

def overrideSpace : GoString := "external_sources/".toList

def overrideKey (id : GoString) : GoString := overrideSpace ++ id

def unmanaged : ManagedSources Source := ⟨none,[],false,[]⟩

def decode (id raw : GoString) : Option (List Source × GoString) :=
  if C.setterFor id then (C.decodeSources raw).map fun sources => (sources,raw) else none

def admits (id : GoString) (sources : List Source) : Bool :=
  (sources.isEmpty || C.validate sources) && C.setterFor id

def applyOverride (services : GoMap GoString (ManagedSources Source)) (id : GoString)
    (sources : List Source) (raw : GoString) : GoMap GoString (ManagedSources Source) :=
  let ms := (services.get id).getD unmanaged
  services.put id { ms with override := sources, hasOverride := true, overrideRaw := raw }

def clearOverride (services : GoMap GoString (ManagedSources Source)) (id : GoString)
    (ms : ManagedSources Source) : GoMap GoString (ManagedSources Source) :=
  if ms.configured.isNone then services.del id
  else services.put id { ms with override := [], hasOverride := false, overrideRaw := [] }

def remove (services : GoMap GoString (ManagedSources Source)) (id : GoString) :
    GoMap GoString (ManagedSources Source) :=
  match services.get id with
  | some ms => if ms.hasOverride then clearOverride services id ms else services
  | none => services

def addPersisted (services : GoMap GoString (ManagedSources Source))
    (row : GoString × GoString) : GoMap GoString (ManagedSources Source) :=
  let id := OverrideStore.trim overrideSpace row.1
  match services.get id with
  | some ms =>
      if ms.hasOverride ∧ ms.overrideRaw = row.2 then services
      else match C.decodeSources row.2 with
        | some sources => applyOverride services id sources row.2
        | none => services
  | none =>
      match C.decodeSources row.2 with
      | some sources => if C.setterFor id then applyOverride services id sources row.2 else services
      | none => services

def clearUnseen (seen : List GoString) (services : GoMap GoString (ManagedSources Source))
    (e : GoString × ManagedSources Source) : GoMap GoString (ManagedSources Source) :=
  if e.2.hasOverride ∧ e.1 ∉ seen then clearOverride services e.1 e.2 else services

def applyPersisted (services : GoMap GoString (ManagedSources Source))
    (order : List (GoString × GoString)) : GoMap GoString (ManagedSources Source) :=
  let seen := order.map fun row => OverrideStore.trim overrideSpace row.1
  let applied := order.foldl (addPersisted C) services
  applied.toList.foldl (clearUnseen seen) applied

def held (services : GoMap GoString (ManagedSources Source)) (id : GoString) :
    Option (List Source × GoString) :=
  (services.get id).bind fun ms =>
    if ms.hasOverride then some (ms.override,ms.overrideRaw) else none

def Sound (services : GoMap GoString (ManagedSources Source)) : Prop :=
  ∀ id ms, services.get id = some ms → C.setterFor id = true ∧
    (ms.hasOverride = true → C.decodeSources ms.overrideRaw = some ms.override)

variable {C} {services : GoMap GoString (ManagedSources Source)} {id raw : GoString}
  {sources : List Source} {ms : ManagedSources Source}

theorem overrideKey_injective : Function.Injective overrideKey :=
  fun _ _ h => append_cancel_left h

theorem decode_eq_some {v : List Source × GoString} (h : decode C id raw = some v) :
    ∃ sources, v = (sources,raw) ∧ C.setterFor id = true ∧ C.decodeSources raw = some sources := by
  obtain ⟨hs,hm⟩ := ite_none_right_eq_some.mp h
  obtain ⟨sources,hd,rfl⟩ := map_eq_some_iff.mp hm
  exact ⟨sources,rfl,hs,hd⟩

theorem decode_encodeSources (h : admits C id sources = true) :
    C.setterFor id = true ∧ C.decodeSources (C.encodeSources sources) = some sources := by
  obtain ⟨hv,hs⟩ := Bool.and_eq_true_iff.mp h
  refine ⟨hs,C.decode_encode sources ?_⟩
  rcases (Bool.or_eq_true _ _).mp hv with he | hv
  · exact Or.inl (List.isEmpty_iff.mp he)
  · exact Or.inr hv

theorem decode_of_admits (h : admits C id sources = true) :
    decode C id (C.encodeSources sources) = some (sources,C.encodeSources sources) := by
  obtain ⟨hs,hd⟩ := decode_encodeSources h
  rw [decode,if_pos hs,hd]
  rfl

theorem held_applyOverride (j : GoString) :
    held (applyOverride services id sources raw) j =
      if j = id then some (sources,raw) else held services j := by
  unfold held applyOverride
  rw [get_put]
  split <;> rfl

theorem sound_applyOverride (hso : Sound C services) (hs : C.setterFor id = true)
    (hd : C.decodeSources raw = some sources) :
    Sound C (applyOverride services id sources raw) := by
  intro j m hg
  rcases get_put_eq_some.mp hg with ⟨rfl,rfl⟩ | ⟨-,hold⟩
  · exact ⟨hs,fun _ => hd⟩
  · exact hso j m hold

theorem held_clearOverride (j : GoString) :
    held (clearOverride services id ms) j = if j = id then none else held services j := by
  unfold held clearOverride
  split
  · rw [get_del]
    split <;> rfl
  · rw [get_put]
    split <;> rfl

theorem sound_clearOverride (hs : Sound C services) (hg : services.get id = some ms) :
    Sound C (clearOverride services id ms) := by
  intro j m hj
  unfold clearOverride at hj
  split at hj
  · exact hs j m (get_del_eq_some.mp hj).2
  · rcases get_put_eq_some.mp hj with ⟨rfl,rfl⟩ | ⟨-,hold⟩
    · exact ⟨(hs _ ms hg).1,fun h => by cases h⟩
    · exact hs j m hold

theorem held_remove (j : GoString) :
    held (remove services id) j = if j = id then none else held services j := by
  unfold remove
  split
  · next ms hg =>
    split
    · exact held_clearOverride j
    · next hno =>
      split
      · next heq =>
        subst heq
        rw [held,hg]
        exact if_neg hno
      · rfl
  · next hn =>
    split
    · next heq =>
      subst heq
      rw [held,hn]
      rfl
    · rfl

theorem sound_remove (hs : Sound C services) : Sound C (remove services id) := by
  unfold remove
  split
  · next ms hg =>
    split
    · exact sound_clearOverride hs hg
    · exact hs
  · exact hs

theorem addPersisted_spec (hs : Sound C services) {v : List Source × GoString}
    (h : decode C id raw = some v) :
    Sound C (addPersisted C services (overrideKey id,raw)) ∧ ∀ j,
      held (addPersisted C services (overrideKey id,raw)) j =
        if j = id then some v else held services j := by
  obtain ⟨sources,rfl,hse,hd⟩ := decode_eq_some h
  have ha : Sound C (applyOverride services id sources raw) ∧ ∀ j,
      held (applyOverride services id sources raw) j =
        if j = id then some (sources,raw) else held services j :=
    ⟨sound_applyOverride hs hse hd,held_applyOverride⟩
  unfold addPersisted
  dsimp only
  rw [overrideKey,OverrideStore.trim_append]
  split
  · next ms hg =>
    split
    · next hk =>
      refine ⟨hs,fun j => ?_⟩
      split
      · next heq =>
        subst heq
        have hc := (hs _ ms hg).2 hk.1
        rw [hk.2,hd] at hc
        rw [held,hg,bind_some,if_pos hk.1,hk.2,some.inj hc]
      · rfl
    · rwa [hd]
  · rw [hd]
    simpa [hse] using ha

theorem held_clearUnseen (seen : List GoString) (hg : services.get id = some ms) (j : GoString) :
    held (clearUnseen seen services (id,ms)) j =
      if j = id ∧ id ∉ seen then none else held services j := by
  unfold clearUnseen
  by_cases hs : id ∈ seen
  · rw [if_neg fun h => h.2 hs,if_neg fun h => h.2 hs]
  · by_cases ho : ms.hasOverride = true
    · rw [if_pos ⟨ho,hs⟩,held_clearOverride]
      simp [hs]
    · rw [if_neg fun h => ho h.1]
      split
      · next heq =>
        rw [heq.1,held,hg,bind_some,if_neg ho]
      · rfl

theorem sound_clearUnseen {seen : List GoString} (hs : Sound C services)
    (hg : services.get id = some ms) : Sound C (clearUnseen seen services (id,ms)) := by
  unfold clearUnseen
  split
  · exact sound_clearOverride hs hg
  · exact hs

theorem get_clearUnseen_ne {seen : List GoString} {j : GoString} (hne : j ≠ id) :
    (clearUnseen seen services (id,ms)).get j = services.get j := by
  unfold clearUnseen clearOverride
  split
  · split
    · exact get_del_ne _ hne
    · exact get_put_ne _ _ hne
  · rfl

theorem foldl_clearUnseen (seen : List GoString)
    {rows : List (GoString × ManagedSources Source)}
    (hs : Sound C services) (hn : (rows.map Prod.fst).Nodup)
    (hr : ∀ j m, (j,m) ∈ rows → services.get j = some m) :
    Sound C (rows.foldl (clearUnseen seen) services) ∧
      (∀ j ∈ seen, held (rows.foldl (clearUnseen seen) services) j = held services j) ∧
      ∀ j ∉ seen, (held services j = none ∨ j ∈ rows.map Prod.fst) →
        held (rows.foldl (clearUnseen seen) services) j = none := by
  induction rows generalizing services with
  | nil =>
    refine ⟨hs,fun _ _ => rfl,fun j _ h => ?_⟩
    rcases h with h | h
    · exact h
    · cases h
  | cons row rows ih =>
    obtain ⟨i,m⟩ := row
    obtain ⟨hi,hno⟩ := nodup_cons.mp hn
    have hg := hr i m (.head _)
    have hh := fun j => held_clearUnseen seen hg j
    have hre : ∀ j m', (j,m') ∈ rows →
        (clearUnseen seen services (i,m)).get j = some m' := by
      intro j m' hm
      have hne : j ≠ i := fun heq => hi (List.mem_map.mpr ⟨(j,m'),hm,heq⟩)
      exact (get_clearUnseen_ne hne).trans (hr j m' (.tail _ hm))
    obtain ⟨he,hse,hu⟩ := ih (sound_clearUnseen hs hg) hno hre
    refine ⟨he,fun j hj => ?_,fun j hj h => hu j hj ?_⟩
    · exact (hse j hj).trans ((hh j).trans (if_neg fun h => h.2 (h.1 ▸ hj)))
    · rw [hh j]
      rcases h with h | h
      · exact Or.inl (ite_eq_left_iff.mpr fun _ => h)
      · rcases mem_cons.mp h with rfl | h
        · exact Or.inl (if_pos ⟨rfl,hj⟩)
        · exact Or.inr h

theorem applyPersisted_spec (hs : Sound C services) {entries : GoMap GoString GoString}
    {order : List (GoString × GoString)} (ho : entries.Iterates order)
    (he : ∀ name raw, entries.get name = some raw →
      ∃ k, name = overrideKey k ∧ (decode C k raw).isSome) :
    Sound C (applyPersisted C services order) ∧ ∀ k,
      held (applyPersisted C services order) k =
        (entries.get (overrideKey k)).bind (decode C k) := by
  have hst : ∀ l j v w, Sound C l → decode C j v = some w →
      Sound C (addPersisted C l (overrideKey j,v)) ∧ ∀ i,
        held (addPersisted C l (overrideKey j,v)) i = if i = j then some w else held l i :=
    fun _ _ _ _ hl hw => addPersisted_spec hl hw
  obtain ⟨had,hh⟩ := ho.foldl_entries overrideKey_injective hst he hs
  have hie := iterates_toList (order.foldl (addPersisted C) services)
  obtain ⟨hen,hse,hu⟩ := foldl_clearUnseen
    (order.map fun row => OverrideStore.trim overrideSpace row.1) had hie.nodup
    fun j m hm => (hie.mem_iff j m).mp hm
  refine ⟨hen,fun k => ?_⟩
  have hm : k ∈ order.map (fun row => OverrideStore.trim overrideSpace row.1) ↔
      ∃ raw, entries.get (overrideKey k) = some raw := by
    constructor
    · intro hk
      obtain ⟨⟨name,raw⟩,hr,rfl⟩ := List.mem_map.mp hk
      have hg := (ho.mem_iff _ _).mp hr
      obtain ⟨j,rfl,-⟩ := he name raw hg
      exact ⟨raw,(congrArg (fun i => entries.get (overrideKey i))
        (OverrideStore.trim_append overrideSpace j)).trans hg⟩
    · rintro ⟨raw,hg⟩
      exact List.mem_map.mpr ⟨_,(ho.mem_iff _ _).mpr hg,
        OverrideStore.trim_append overrideSpace k⟩
  cases hg : entries.get (overrideKey k) with
  | some raw =>
    refine (hse k (hm.mpr ⟨raw,hg⟩)).trans ((hh k).trans ?_)
    rw [hg]
    rfl
  | none =>
    have hn : k ∉ order.map fun row => OverrideStore.trim overrideSpace row.1 := by
      intro hk
      obtain ⟨raw,hra⟩ := hm.mp hk
      cases hg.symm.trans hra
    apply hu k hn
    cases ha : (order.foldl (addPersisted C) services).get k with
    | none =>
      left
      rw [held,ha]
      rfl
    | some m => exact Or.inr (List.mem_map.mpr ⟨(k,m),(hie.mem_iff k m).mpr ha,rfl⟩)

variable (C) in
def seam : OverrideSeam GoString (List Source) (List Source × GoString)
    (GoMap GoString (ManagedSources Source)) where
  keySpace := overrideSpace
  key := overrideKey
  encode := C.encodeSources
  decode := decode C
  admits := admits C
  set services _ id sources := applyOverride services id sources (C.encodeSources sources)
  remove := remove
  applyPersisted services _ := applyPersisted C services
  held := held
  Sound := Sound C
  key_listed := OverrideStore.listed_append overrideSpace
  key_injective := overrideKey_injective
  decode_encode _ _ h := ⟨_,decode_of_admits h⟩
  sound_set _ _ _ _ hsound h :=
    sound_applyOverride hsound (decode_encodeSources h).1 (decode_encodeSources h).2
  held_set_self _ _ _ _ h :=
    (held_applyOverride _).trans ((if_pos rfl).trans (decode_of_admits h).symm)
  held_set_ne _ _ _ _ _ hne := (held_applyOverride _).trans (if_neg hne)
  sound_remove _ _ hsound := sound_remove hsound
  held_remove_self _ _ := (held_remove _).trans (if_pos rfl)
  held_remove_ne _ _ _ hne := (held_remove _).trans (if_neg hne)
  sound_applyPersisted _ _ _ _ hsound horder hentries :=
    (applyPersisted_spec hsound horder hentries).1
  held_applyPersisted _ _ _ _ hsound horder hentries :=
    (applyPersisted_spec hsound horder hentries).2

end ExternalSources

end SageGateway
