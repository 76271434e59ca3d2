import SageGateway.Override.Store
import SageGateway.Lib.Run

namespace SageGateway

open Option GoMap

def configOverrideKey : GoString := "config".toList

structure ConfigSource (Cfg : Type) where
  loadFromBytes : GoString → Option Cfg
  loadFromFile : Option Cfg
  validateConfig : Cfg → Bool
  loadFromBytes_empty : loadFromBytes [] = none

inductive ConfigCall (Cfg : Type) where
  | applying (raw : GoString) (next : Cfg)
  | remembering (raw : GoString)
  | persisting (raw : GoString)
  | deleting
  | forgetting
  | loading
  | reverting (next : Cfg)

inductive ConfigCallback (Cfg : Type) where
  | idle
  | called (entries : GoMap GoString GoString)
  | applying (raw : GoString) (next : Cfg)
  | remembering (raw : GoString)
  | forgetting
  | loading
  | reverting (next : Cfg)

def ConfigCallback.isIdle {Cfg : Type} : ConfigCallback Cfg → Bool
  | .idle => true
  | _ => false

structure ConfigReplica (Cfg : Type) where
  config : Cfg
  overrideRaw : GoString
  overrides : OverrideStore
  watch : OverrideWatch
  callback : ConfigCallback Cfg
  calls : GoMap Nat (ConfigCall Cfg)
  polled : Bool

namespace ConfigReplica

variable {Cfg : Type}

def start (file : Cfg) (overrides : OverrideStore) : ConfigReplica Cfg :=
  ⟨file,[],overrides,.start,.idle,∅,false⟩

def apply (S : ConfigSource Cfg) (r : ConfigReplica Cfg) (next : Cfg) :
    Option (ConfigReplica Cfg) :=
  if S.validateConfig next then some { r with config := next } else none

def setCall (r : ConfigReplica Cfg) (n : Nat) (c : ConfigCall Cfg) : ConfigReplica Cfg :=
  { r with calls := r.calls.put n c }

def endCall (r : ConfigReplica Cfg) (n : Nat) : ConfigReplica Cfg :=
  { r with calls := r.calls.del n }

def call (r : ConfigReplica Cfg) (n : Nat) (c : ConfigCall Cfg) : Option (ConfigReplica Cfg) :=
  if r.calls.has n then none else some { r with calls := r.calls.put n c, polled := false }

def applyConfig (S : ConfigSource Cfg) (r : ConfigReplica Cfg) (n : Nat) (raw : GoString) :
    Option (ConfigReplica Cfg) :=
  match S.loadFromBytes raw with
  | some next => r.call n (.applying raw next)
  | none => some r

def clearConfigOverride (r : ConfigReplica Cfg) (n : Nat) : Option (ConfigReplica Cfg) :=
  r.call n .deleting

def advance (S : ConfigSource Cfg) (r : ConfigReplica Cfg) (n : Nat) :
    ConfigCall Cfg → ConfigReplica Cfg
  | .applying raw next =>
      match r.apply S next with
      | some r => r.setCall n (.remembering raw)
      | none => r.endCall n
  | .remembering raw => { r with overrideRaw := raw }.setCall n (.persisting raw)
  | .persisting raw =>
      { r with overrides := r.overrides.put configOverrideKey raw }.endCall n
  | .deleting =>
      { r with overrides := r.overrides.del configOverrideKey }.setCall n .forgetting
  | .forgetting => { r with overrideRaw := [] }.setCall n .loading
  | .loading =>
      match S.loadFromFile with
      | some next => r.setCall n (.reverting next)
      | none => r.endCall n
  | .reverting next => ((r.apply S next).getD r).endCall n

def poll (r : ConfigReplica Cfg) : Option (ConfigReplica Cfg) :=
  match r.callback with
  | .idle =>
      let cur := r.overrides.list configOverrideKey
      let r := { r with polled := r.calls.len = 0 }
      some (if r.watch.applies cur then { r with watch := .listed cur, callback := .called cur }
        else r)
  | _ => none

def watchConfigOverride (S : ConfigSource Cfg) (r : ConfigReplica Cfg) :
    ConfigCallback Cfg → Option (ConfigReplica Cfg)
  | .idle => none
  | .called entries =>
      match entries.get configOverrideKey with
      | some raw =>
          if raw ≠ r.overrideRaw then
            match S.loadFromBytes raw with
            | some next => some { r with callback := .applying raw next }
            | none => some { r with callback := .idle }
          else some { r with callback := .idle }
      | none =>
          if r.overrideRaw ≠ [] then some { r with callback := .forgetting }
          else some { r with callback := .idle }
  | .applying raw next =>
      match r.apply S next with
      | some r => some { r with callback := .remembering raw }
      | none => some { r with callback := .idle }
  | .remembering raw => some { r with overrideRaw := raw, callback := .idle }
  | .forgetting => some { r with overrideRaw := [], callback := .loading }
  | .loading =>
      match S.loadFromFile with
      | some next => some { r with callback := .reverting next }
      | none => some { r with callback := .idle }
  | .reverting next => some { (r.apply S next).getD r with callback := .idle }

inductive Act where
  | applyConfig (n : Nat) (raw : GoString)
  | clearConfigOverride (n : Nat)
  | advance (n : Nat)
  | poll
  | watch
  deriving DecidableEq

def step (S : ConfigSource Cfg) (r : ConfigReplica Cfg) : Act → Option (ConfigReplica Cfg)
  | .applyConfig n raw => r.applyConfig S n raw
  | .clearConfigOverride n => r.clearConfigOverride n
  | .advance n => (r.calls.get n).map (r.advance S n)
  | .poll => r.poll
  | .watch => r.watchConfigOverride S r.callback

def desired (S : ConfigSource Cfg) (r : ConfigReplica Cfg) : Option Cfg :=
  match r.overrides.get configOverrideKey with
  | some raw => S.loadFromBytes raw
  | none => S.loadFromFile

def Alone (r : ConfigReplica Cfg) : Act → Prop
  | .applyConfig _ _ => r.calls.len = 0 ∧ r.callback.isIdle = true
  | .clearConfigOverride _ => r.calls.len = 0 ∧ r.callback.isIdle = true
  | .poll => r.watch.applies (r.overrides.list configOverrideKey) = true → r.calls.len = 0
  | _ => True

instance (r : ConfigReplica Cfg) : ∀ a, Decidable (Alone r a)
  | .applyConfig _ _ => inferInstanceAs (Decidable (_ ∧ _))
  | .clearConfigOverride _ => inferInstanceAs (Decidable (_ ∧ _))
  | .poll => inferInstanceAs (Decidable (_ → _))
  | .advance _ | .watch => .isTrue trivial

structure InForce (S : ConfigSource Cfg) (r : ConfigReplica Cfg) : Prop where
  config : r.desired S = some r.config
  raw : r.overrideRaw = (r.overrides.get configOverrideKey).getD []

structure OnFile (S : ConfigSource Cfg) (r : ConfigReplica Cfg) : Prop where
  config : S.loadFromFile = some r.config
  raw : r.overrideRaw = []

structure Cleared (r : ConfigReplica Cfg) : Prop where
  store : r.overrides.get configOverrideKey = none
  raw : r.overrideRaw = []

def CallInv (S : ConfigSource Cfg) (r : ConfigReplica Cfg) : ConfigCall Cfg → Prop
  | .applying raw next => S.loadFromBytes raw = some next
  | .remembering raw => S.loadFromBytes raw = some r.config
  | .persisting raw => S.loadFromBytes raw = some r.config ∧ r.overrideRaw = raw
  | .deleting => True
  | .forgetting => r.overrides.get configOverrideKey = none
  | .loading => Cleared r
  | .reverting next => Cleared r ∧ S.loadFromFile = some next

def WatchInv (S : ConfigSource Cfg) (r : ConfigReplica Cfg) : ConfigCallback Cfg → Prop
  | .idle => InForce S r ∨ r.watch.first = true ∧ OnFile S r
  | .called entries =>
      entries.get configOverrideKey = r.overrides.get configOverrideKey ∧
        (InForce S r ∨ OnFile S r)
  | .applying raw next =>
      r.overrides.get configOverrideKey = some raw ∧ S.loadFromBytes raw = some next
  | .remembering raw =>
      r.overrides.get configOverrideKey = some raw ∧ S.loadFromBytes raw = some r.config
  | .forgetting => r.overrides.get configOverrideKey = none
  | .loading => Cleared r
  | .reverting next => Cleared r ∧ S.loadFromFile = some next

structure Steady (S : ConfigSource Cfg) (r : ConfigReplica Cfg) : Prop where
  stored : ∀ raw, r.overrides.get configOverrideKey = some raw →
    ∃ cfg, S.loadFromBytes raw = some cfg
  running : ∀ n c, r.calls.get n = some c →
    r.callback = .idle ∧ CallInv S r c ∧ ∀ m d, r.calls.get m = some d → m = n
  resting : r.calls.len = 0 → WatchInv S r r.callback
  polled : r.polled = true → r.watch.first = false

section

variable {S : ConfigSource Cfg} {r r' : ConfigReplica Cfg} {n : Nat} {c : ConfigCall Cfg}

theorem eq_idle {k : ConfigCallback Cfg} (h : k.isIdle = true) : k = .idle := by
  cases k with
  | idle => rfl
  | _ => cases h

theorem InForce.of_cleared (h : Cleared r) (hfile : S.loadFromFile = some r.config) :
    InForce S r where
  config := by
    rwa [desired,h.store]
  raw := by rw [h.store,h.raw,getD_none]

theorem InForce.of_stored {raw : GoString}
    (hg : r.overrides.get configOverrideKey = some raw)
    (hl : S.loadFromBytes raw = some r.config) (hr : r.overrideRaw = raw) :
    InForce S r where
  config := by
    rwa [desired,hg]
  raw := by rw [hg,hr,getD_some]

theorem apply_valid {next : Cfg} (h : S.validateConfig next = true) :
    r.apply S next = some { r with config := next } := if_pos h

namespace Steady

theorem setCall (h : Steady S r) (hg : r.calls.get n = some c) {c' : ConfigCall Cfg}
    (hca : r'.calls = r.calls.put n c') (hc : r'.callback = r.callback)
    (hw : r'.watch = r.watch) (hp : r'.polled = r.polled)
    (hs : ∀ raw, r'.overrides.get configOverrideKey = some raw →
      ∃ cfg, S.loadFromBytes raw = some cfg)
    (hin : CallInv S r' c') : Steady S r' := by
  obtain ⟨hid,-,hu⟩ := h.running n c hg
  have ho : ∀ m d, r'.calls.get m = some d → m = n ∧ d = c' := by
    intro m d hm
    rw [hca] at hm
    rcases get_put_eq_some.mp hm with ⟨hmn,hd⟩ | ⟨hne,hm'⟩
    · exact ⟨hmn,hd.symm⟩
    · exact absurd (hu m d hm') hne
  refine ⟨hs,?_,?_,?_⟩
  · intro m d hm
    obtain ⟨rfl,rfl⟩ := ho m d hm
    exact ⟨hc.trans hid,hin,fun m' d' hm' => (ho m' d' hm').1⟩
  · intro hl
    have hn := get_of_len_zero hl n
    rw [hca,get_put_self] at hn
    cases hn
  · rw [hp,hw]
    exact h.polled

theorem endCall (h : Steady S r) (hg : r.calls.get n = some c)
    (hca : r'.calls = r.calls.del n) (hc : r'.callback = r.callback)
    (hw : r'.watch = r.watch) (hp : r'.polled = r.polled)
    (hs : ∀ raw, r'.overrides.get configOverrideKey = some raw →
      ∃ cfg, S.loadFromBytes raw = some cfg)
    (hf : InForce S r') : Steady S r' := by
  obtain ⟨hid,-,hu⟩ := h.running n c hg
  refine ⟨hs,?_,?_,?_⟩
  · intro m d hm
    rw [hca] at hm
    obtain ⟨hne,hm'⟩ := get_del_eq_some.mp hm
    exact absurd (hu m d hm') hne
  · intro _
    rw [hc,hid]
    exact Or.inl hf
  · rw [hp,hw]
    exact h.polled

theorem call (h : Steady S r) (hl : r.calls.len = 0) (hid : r.callback.isIdle = true)
    (hc : r.call n c = some r') (hin : ∀ r : ConfigReplica Cfg, CallInv S r c) :
    Steady S r' := by
  obtain ⟨-,rfl⟩ := Run.guard_neg hc
  have ho : ∀ m d, (r.calls.put n c).get m = some d → m = n ∧ d = c := by
    intro m d hm
    rcases get_put_eq_some.mp hm with ⟨hmn,hd⟩ | ⟨-,hm'⟩
    · exact ⟨hmn,hd.symm⟩
    · rw [get_of_len_zero hl] at hm'
      cases hm'
  refine ⟨h.stored,?_,?_,?_⟩
  · intro m d hm
    obtain ⟨rfl,rfl⟩ := ho m d hm
    exact ⟨eq_idle hid,hin _,fun m' d' hm' => (ho m' d' hm').1⟩
  · intro hl'
    have hn := get_of_len_zero hl' n
    cases (show (r.calls.put n c).get n = some c from get_put_self _ _ _).symm.trans hn
  · nofun

theorem watch {k : ConfigCallback Cfg} (h : Steady S r) (hk : r.callback = k)
    (hb : k.isIdle = false) (ho : r'.overrides = r.overrides) (hc : r'.calls = r.calls)
    (hw : r'.watch = r.watch) (hp : r'.polled = r.polled)
    (hin : WatchInv S r k → WatchInv S r' r'.callback) : Steady S r' := by
  refine ⟨ho ▸ h.stored,?_,?_,?_⟩
  · intro m d hm
    rw [hc] at hm
    rw [← hk,(h.running m d hm).1] at hb
    cases hb
  · intro hl
    rw [hc] at hl
    exact hin (hk ▸ h.resting hl)
  · rw [hp,hw]
    exact h.polled

theorem called {entries : GoMap GoString GoString} (h : Steady S r)
    (hk : r.callback = .called entries)
    (hw : r.watchConfigOverride S (.called entries) = some r') : Steady S r' := by
  have hem : ¬r.overrides.get configOverrideKey = some [] := by
    intro hg
    obtain ⟨cfg,hl⟩ := h.stored [] hg
    cases S.loadFromBytes_empty.symm.trans hl
  unfold ConfigReplica.watchConfigOverride at hw
  dsimp only at hw
  split at hw
  · next raw he =>
    split at hw
    · next hne =>
      split at hw
      · next next hl =>
        cases hw
        exact h.watch hk rfl rfl rfl rfl rfl fun hin => ⟨hin.1.symm.trans he,hl⟩
      · next hl =>
        cases hw
        refine h.watch hk rfl rfl rfl rfl rfl fun hin => ?_
        obtain ⟨cfg,hs⟩ := h.stored raw (hin.1.symm.trans he)
        cases hl.symm.trans hs
    · next heq =>
      cases hw
      refine h.watch hk rfl rfl rfl rfl rfl fun hin => ?_
      rcases hin.2 with hf | hfile
      · exact Or.inl { hf with }
      · rw [not_not.mp heq,hfile.raw] at he
        exact absurd (hin.1.symm.trans he) hem
  · next he =>
    split at hw
    · cases hw
      exact h.watch hk rfl rfl rfl rfl rfl fun hin => hin.1.symm.trans he
    · next heq =>
      cases hw
      refine h.watch hk rfl rfl rfl rfl rfl fun hin => ?_
      rcases hin.2 with hf | hfile
      · exact Or.inl { hf with }
      · exact Or.inl (InForce.of_cleared ⟨hin.1.symm.trans he,hfile.raw⟩ hfile.config)

theorem advance (hvalid : ∀ cfg, S.validateConfig cfg = true) (hfile : S.loadFromFile.isSome)
    (h : Steady S r) (hg : r.calls.get n = some c) : Steady S (r.advance S n c) := by
  obtain ⟨-,hin,-⟩ := h.running n c hg
  cases c with
  | applying raw next =>
    rw [ConfigReplica.advance,apply_valid (hvalid next)]
    exact h.setCall hg rfl rfl rfl rfl h.stored hin
  | remembering raw => exact h.setCall hg rfl rfl rfl rfl h.stored ⟨hin,rfl⟩
  | persisting raw =>
    obtain ⟨hl,hr⟩ := hin
    have hp : (r.overrides.put configOverrideKey raw).get configOverrideKey = some raw :=
      get_put_self _ _ _
    refine h.endCall hg rfl rfl rfl rfl ?_ (InForce.of_stored hp hl hr)
    intro raw' hg'
    obtain rfl := some.inj (hp.symm.trans hg')
    exact ⟨r.config,hl⟩
  | deleting =>
    have hdel : (r.overrides.del configOverrideKey).get configOverrideKey = none :=
      get_del_self _ _
    refine h.setCall hg rfl rfl rfl rfl ?_ hdel
    intro raw hr
    cases hdel.symm.trans hr
  | forgetting => exact h.setCall hg rfl rfl rfl rfl h.stored ⟨hin,rfl⟩
  | loading =>
    obtain ⟨next,hn⟩ := isSome_iff_exists.mp hfile
    rw [ConfigReplica.advance,hn]
    exact h.setCall hg rfl rfl rfl rfl h.stored ⟨{ hin with },hn⟩
  | reverting next =>
    obtain ⟨hc,hn⟩ := hin
    rw [ConfigReplica.advance,apply_valid (hvalid next)]
    exact h.endCall hg rfl rfl rfl rfl h.stored
      (InForce.of_cleared { hc with } hn)

theorem poll (h : Steady S r) (hok : Alone r .poll) (hp : r.poll = some r') : Steady S r' := by
  unfold ConfigReplica.poll at hp
  split at hp
  · next hid =>
    dsimp only at hp
    split at hp
    · next ha =>
      cases hp
      have hl := hok ha
      refine ⟨h.stored,?_,?_,fun _ => rfl⟩
      · intro m d hm
        cases (get_of_len_zero hl m).symm.trans hm
      · intro _
        refine ⟨OverrideStore.get_list (by decide),?_⟩
        have hr := h.resting hl
        rw [hid] at hr
        rcases hr with hf | ⟨-,hb⟩
        · exact Or.inl { hf with }
        · exact Or.inr { hb with }
    · next ha =>
      cases hp
      have hfi : r.watch.first = false := by
        rw [Bool.eq_false_iff]
        exact fun hfi => ha (OverrideWatch.applies_of_first hfi _)
      refine ⟨h.stored,?_,?_,fun _ => hfi⟩
      · intro m d hm
        obtain ⟨hid,hin,hu⟩ := h.running m d hm
        refine ⟨hid,?_,hu⟩
        cases d with
        | loading => exact { hin with }
        | reverting next => exact ⟨⟨hin.1.store,hin.1.raw⟩,hin.2⟩
        | _ => exact hin
      · intro hl
        have hr := h.resting hl
        rw [hid] at hr
        rw [hid]
        rcases hr with hf | ⟨hb,-⟩
        · exact Or.inl { hf with }
        · cases hfi.symm.trans hb
  · cases hp

section

variable (hvalid : ∀ cfg, S.validateConfig cfg = true) (hfile : S.loadFromFile.isSome)
  (h : Steady S r)

include hvalid hfile h

theorem watchConfigOverride {k : ConfigCallback Cfg} (hk : r.callback = k)
    (hw : r.watchConfigOverride S k = some r') : Steady S r' := by
  cases k with
  | idle => cases hw
  | called entries => exact h.called hk hw
  | applying raw next =>
    rw [ConfigReplica.watchConfigOverride,apply_valid (hvalid next)] at hw
    cases hw
    exact h.watch hk rfl rfl rfl rfl rfl fun hin => hin
  | remembering raw =>
    cases hw
    exact h.watch hk rfl rfl rfl rfl rfl fun hin =>
      Or.inl (InForce.of_stored hin.1 hin.2 rfl)
  | forgetting =>
    cases hw
    exact h.watch hk rfl rfl rfl rfl rfl fun hin => ⟨hin,rfl⟩
  | loading =>
    obtain ⟨next,hn⟩ := isSome_iff_exists.mp hfile
    rw [ConfigReplica.watchConfigOverride,hn] at hw
    cases hw
    exact h.watch hk rfl rfl rfl rfl rfl fun hin => ⟨{ hin with },hn⟩
  | reverting next =>
    rw [ConfigReplica.watchConfigOverride,apply_valid (hvalid next)] at hw
    cases hw
    exact h.watch hk rfl rfl rfl rfl rfl fun hin =>
      Or.inl (InForce.of_cleared ⟨hin.1.store,hin.1.raw⟩ hin.2)

theorem step {a : Act} (hok : Alone r a) (hs : r.step S a = some r') : Steady S r' := by
  cases a with
  | applyConfig n raw =>
    simp [ConfigReplica.step,applyConfig] at hs
    split at hs
    · next next hl => exact h.call hok.1 hok.2 hs fun _ => hl
    · cases hs
      exact h
  | clearConfigOverride n => exact h.call hok.1 hok.2 hs fun _ => trivial
  | advance n =>
    obtain ⟨c,hg,rfl⟩ := map_eq_some_iff.mp hs
    exact h.advance hvalid hfile hg
  | poll => exact h.poll hok hs
  | watch => exact h.watchConfigOverride hvalid hfile rfl hs

end

end Steady

theorem steady_start {file : Cfg} {overrides : OverrideStore}
    (hfile : S.loadFromFile = some file)
    (hs : ∀ raw, overrides.get configOverrideKey = some raw →
      ∃ cfg, S.loadFromBytes raw = some cfg) : Steady S (start file overrides) where
  stored := hs
  running n c h := by cases h
  resting _ := Or.inr ⟨rfl,hfile,rfl⟩
  polled h := by cases h

end

theorem uploaded_config_converges (S : ConfigSource Cfg) {file : Cfg} {overrides : OverrideStore}
    (hvalid : ∀ cfg, S.validateConfig cfg = true) (hfile : S.loadFromFile = some file)
    (hstored : ∀ raw, overrides.get configOverrideKey = some raw →
      ∃ cfg, S.loadFromBytes raw = some cfg) {r : ConfigReplica Cfg}
    (hr : Run.Reaches (step S) Alone (start file overrides) r) (hcalls : r.calls.len = 0)
    (hcallback : r.callback.isIdle = true) (hpolled : r.polled = true) :
    r.desired S = some r.config := by
  have hs : S.loadFromFile.isSome := isSome_iff_exists.mpr ⟨file,hfile⟩
  have h := hr.invariant (Steady S) (steady_start hfile hstored)
    fun _ _ _ h hok hst => h.step hvalid hs hok hst
  have hre := h.resting hcalls
  rw [eq_idle hcallback] at hre
  rcases hre with hfo | ⟨hf,-⟩
  · exact hfo.config
  · cases (h.polled hpolled).symm.trans hf

def textSource : ConfigSource GoString where
  loadFromBytes raw := if raw = [] then none else some raw
  loadFromFile := some "file".toList
  validateConfig _ := true
  loadFromBytes_empty := rfl

def crossedUploads : List Act :=
  [.poll,.watch,.applyConfig 1 "a".toList,.applyConfig 2 "b".toList,.advance 1,.advance 2,
    .advance 2,.advance 1,.advance 2,.advance 1,.poll,.watch,.poll]

theorem crossed_uploads_leave_the_first_applied :
    ∃ r, Run.Reaches (step textSource) (fun _ _ => True) (start "file".toList ∅) r ∧
      r.calls.len = 0 ∧ r.callback.isIdle = true ∧ r.polled = true ∧
      r.desired textSource ≠ some r.config :=
  Run.reaches crossedUploads (by decide +kernel)

def uploadThenClear : List Act :=
  [.poll,.watch,.watch,.watch,.applyConfig 1 "b".toList,.advance 1,.advance 1,.poll,.advance 1,
    .poll,.watch,.clearConfigOverride 2,.advance 2,.advance 2,.advance 2,.advance 2,.poll,.watch]

def storedUpload : OverrideStore := (∅ : OverrideStore).put configOverrideKey "a".toList

theorem upload_then_clear_returns_to_the_file :
    ∃ r : ConfigReplica GoString, r.config = "file".toList ∧ r.desired textSource =
    some r.config := by
  obtain ⟨r,hr,hca,hc,hp,hco⟩ :
      ∃ r, Run.Reaches (step textSource) Alone (start "file".toList storedUpload) r ∧
        r.calls.len = 0 ∧ r.callback.isIdle = true ∧ r.polled = true ∧
        r.config = "file".toList := Run.reaches uploadThenClear (by decide +kernel)
  refine ⟨r,hco,uploaded_config_converges textSource (fun _ => rfl) rfl ?_ hr hca
    hc hp⟩
  intro raw hg
  obtain rfl : "a".toList = raw := some.inj hg
  exact ⟨_,rfl⟩

end ConfigReplica

end SageGateway
