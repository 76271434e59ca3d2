import SageGateway.Lib.GoMap
import SageGateway.Lib.Run

namespace SageGateway.Singleflight

open List Option GoMap

-- What a relay leaves its caller with: the response, the verdict and the error.
structure Outcome (R V E : Type) where
  response : Option R
  verdict : Option V
  err : Option E
  deriving DecidableEq

variable {R V E : Type}

-- With a result, whether the runner's context had ended when the relay returned; with a flight
-- handed over, also its leaderGone.
inductive Stage (R V E : Type) where
  | running
  | returned (o : Outcome R V E) (ended : Bool)
  | handed (o : Outcome R V E) (ended leaderGone : Bool)

namespace Stage

def result : Stage R V E → Option (Outcome R V E × Bool)
  | running => none
  | returned o ended => some (o,ended)
  | handed o ended _ => some (o,ended)

def isOver : Stage R V E → Bool
  | handed _ _ _ => true
  | _ => false

end Stage

structure Flight (R V E : Type) where
  leader : Nat
  -- History: the callers that waited for it.
  followers : List Nat
  stage : Stage R V E

inductive Phase where
  | entering
  | running (f : Nat)
  | handing (f : Nat)
  | leading (f : Nat)
  | waiting (f : Nat)
  | done
  deriving DecidableEq

inductive Event (R V E : Type) where
  | started (c f : Nat)
  | joined (c f : Nat)
  | finished (f : Nat) (o : Outcome R V E) (ended : Bool)
  | landed (f : Nat)
  | answered (c f : Nat) (o : Outcome R V E) (alive : Bool)
  deriving DecidableEq

-- The callers of one key and the group's call for it. Callers are told apart by numbers.
structure Group (R V E : Type) where
  ended : Finset Nat
  phases : GoMap Nat Phase
  inFlight : Option Nat
  flights : GoMap Nat (Flight R V E)
  launched : Nat
  log : List (Event R V E)

inductive Act (R V E : Type) where
  | arrive (c : Nat)
  | endContext (c : Nat)
  | enter (c : Nat)
  | relayReturns (c : Nat) (o : Outcome R V E)
  | handOver (c : Nat)
  | leave (c : Nat)
  | receive (c : Nat)

namespace Group

def new : Group R V E := ⟨∅,∅,none,∅,0,[]⟩

section Steps

variable (w : Group R V E) (c f : Nat)

def launch : Group R V E :=
  { w with
    phases := w.phases.put c (.running w.launched)
    inFlight := some w.launched
    flights := w.flights.put w.launched ⟨c,[],.running⟩
    launched := w.launched + 1
    log := .started c w.launched :: w.log }

def join (fl : Flight R V E) : Group R V E :=
  { w with
    phases := w.phases.put c (.waiting f)
    flights := w.flights.put f { fl with followers := c :: fl.followers }
    log := .joined c f :: w.log }

def finish (fl : Flight R V E) (o : Outcome R V E) : Group R V E :=
  { w with
    phases := w.phases.put c (.handing f)
    flights := w.flights.put f { fl with stage := .returned o (decide (c ∈ w.ended)) }
    log := .finished f o (decide (c ∈ w.ended)) :: w.log }

def land (fl : Flight R V E) (o : Outcome R V E) (ended : Bool) : Group R V E :=
  { w with
    phases := w.phases.put c (.leading f)
    inFlight := none
    flights := w.flights.put f { fl with stage := .handed o ended (decide (c ∈ w.ended)) }
    log := .landed f :: w.log }

def answer (o : Outcome R V E) : Group R V E :=
  { w with
    phases := w.phases.put c .done
    log := .answered c f o (decide (c ∉ w.ended)) :: w.log }

-- A follower of a flight whose leader was gone enters again while its own context lives.
def collect (o : Outcome R V E) (leaderGone : Bool) : Group R V E :=
  if leaderGone = true ∧ c ∉ w.ended then { w with phases := w.phases.put c .entering }
  else w.answer c f o

end Steps

def step (w : Group R V E) : Act R V E → Option (Group R V E)
  | .arrive c => if w.phases.has c then none else some { w with phases := w.phases.put c .entering }
  | .endContext c => some { w with ended := insert c w.ended }
  | .enter c =>
      match w.phases.get c,w.inFlight with
      | some .entering,none => some (w.launch c)
      | some .entering,some f => (w.flights.get f).map (w.join c f)
      | _,_ => none
  | .relayReturns c o =>
      match w.phases.get c with
      | some (.running f) => (w.flights.get f).map fun fl => w.finish c f fl o
      | _ => none
  | .handOver c =>
      match w.phases.get c with
      | some (.handing f) =>
          (w.flights.get f).bind fun fl => fl.stage.result.map fun r => w.land c f fl r.1 r.2
      | _ => none
  | .leave c =>
      match w.phases.get c with
      | some (.leading f) =>
          (w.flights.get f).bind fun fl => fl.stage.result.map fun r => w.answer c f r.1
      | _ => none
  | .receive c =>
      match w.phases.get c with
      | some (.waiting f) =>
          (w.flights.get f).bind fun fl =>
            match fl.stage with
            | .handed o _ leaderGone => some (w.collect c f o leaderGone)
            | _ => none
      | _ => none

-- What one call of step can do, with the facts each move rests on.
inductive Moves (w : Group R V E) : Group R V E → Prop
  | arrive {c : Nat} (hnew : w.phases.get c = none) :
      Moves w { w with phases := w.phases.put c .entering }
  | endContext (c : Nat) : Moves w { w with ended := insert c w.ended }
  | launch {c : Nat} (hc : w.phases.get c = some .entering) (hfree : w.inFlight = none) :
      Moves w (w.launch c)
  | join {c f : Nat} {fl : Flight R V E} (hc : w.phases.get c = some .entering)
      (hin : w.inFlight = some f) (hf : w.flights.get f = some fl) : Moves w (w.join c f fl)
  | finish {c f : Nat} {fl : Flight R V E} (hc : w.phases.get c = some (.running f))
      (hf : w.flights.get f = some fl) (o : Outcome R V E) : Moves w (w.finish c f fl o)
  | land {c f : Nat} {fl : Flight R V E} {o : Outcome R V E} {ended : Bool}
      (hc : w.phases.get c = some (.handing f)) (hf : w.flights.get f = some fl)
      (hresult : fl.stage.result = some (o,ended)) : Moves w (w.land c f fl o ended)
  | leave {c f : Nat} {fl : Flight R V E} {o : Outcome R V E} {ended : Bool}
      (hc : w.phases.get c = some (.leading f)) (hf : w.flights.get f = some fl)
      (hresult : fl.stage.result = some (o,ended)) : Moves w (w.answer c f o)
  | again {c f : Nat} {fl : Flight R V E} (hc : w.phases.get c = some (.waiting f))
      (hf : w.flights.get f = some fl) : Moves w { w with phases := w.phases.put c .entering }
  | share {c f : Nat} {fl : Flight R V E} {o : Outcome R V E} {ended leaderGone : Bool}
      (hc : w.phases.get c = some (.waiting f)) (hf : w.flights.get f = some fl)
      (hover : fl.stage = .handed o ended leaderGone) (hgone : leaderGone = true → c ∈ w.ended) :
      Moves w (w.answer c f o)

variable {w w' : Group R V E}

theorem moves_of_step {a : Act R V E} (h : w.step a = some w') : Moves w w' := by
  cases a with
  | arrive c =>
    obtain ⟨hn,rfl⟩ := Run.guard_neg h
    exact .arrive (not_isSome_iff_eq_none.mp hn)
  | endContext c =>
    cases h
    exact .endContext c
  | enter c =>
    unfold step at h
    dsimp only at h
    split at h
    · next hc hfr =>
      cases h
      exact .launch hc hfr
    · next f hc hin =>
      obtain ⟨fl,hf,rfl⟩ := map_eq_some_iff.mp h
      exact .join hc hin hf
    · cases h
  | relayReturns c o =>
    unfold step at h
    dsimp only at h
    split at h
    · next f hc =>
      obtain ⟨fl,hf,rfl⟩ := map_eq_some_iff.mp h
      exact .finish hc hf o
    · cases h
  | handOver c =>
    unfold step at h
    dsimp only at h
    split at h
    · next f hc =>
      obtain ⟨fl,hf,hm⟩ := bind_eq_some_iff.mp h
      obtain ⟨⟨o,ended⟩,hr,rfl⟩ := map_eq_some_iff.mp hm
      exact .land hc hf hr
    · cases h
  | leave c =>
    unfold step at h
    dsimp only at h
    split at h
    · next f hc =>
      obtain ⟨fl,hf,hm⟩ := bind_eq_some_iff.mp h
      obtain ⟨⟨o,ended⟩,hr,rfl⟩ := map_eq_some_iff.mp hm
      exact .leave hc hf hr
    · cases h
  | receive c =>
    unfold step at h
    dsimp only at h
    split at h
    · next f hc =>
      obtain ⟨fl,hf,hb⟩ := bind_eq_some_iff.mp h
      split at hb
      · next o ended leaderGone ho =>
        cases hb
        unfold collect
        split
        · exact .again hc hf
        · next hk =>
          exact .share hc hf ho fun hg => not_not.mp fun hc => hk ⟨hg,hc⟩
      · cases hb
    · cases h

section Invariant

variable {c f : Nat} {fl : Flight R V E}

def PhaseOk (w : Group R V E) (c : Nat) : Phase → Prop
  | .running f => ∃ fl, w.flights.get f = some fl ∧ fl.leader = c ∧ fl.stage = .running
  | .handing f => ∃ fl o ended, w.flights.get f = some fl ∧ fl.leader = c ∧
      fl.stage = .returned o ended ∧ (ended = true → c ∈ w.ended)
  | .leading f => ∃ fl o ended gone, w.flights.get f = some fl ∧ fl.leader = c ∧
      fl.stage = .handed o ended gone ∧ (ended = true → c ∈ w.ended)
  | .waiting f => ∃ fl, w.flights.get f = some fl ∧ c ∈ fl.followers
  | _ => True

-- Once a flight has landed its followers are those of that moment.
structure Closed (w : Group R V E) (f : Nat) (fl : Flight R V E) (l : List (Event R V E)) :
    Prop where
  landed : .landed f :: l <:+ w.log
  started : .started fl.leader f ∈ l
  joined : ∀ c ∈ fl.followers, .joined c f ∈ l

structure FlightOk (w : Group R V E) (f : Nat) (fl : Flight R V E) : Prop where
  launched : f < w.launched
  started : .started fl.leader f ∈ w.log
  flying : fl.stage.isOver = false → w.inFlight = some f
  joined : ∀ c ∈ fl.followers, .joined c f ∈ w.log ∧ c ≠ fl.leader
  finished : ∀ o ended, fl.stage.result = some (o,ended) → .finished f o ended ∈ w.log
  closed : ∀ o ended gone, fl.stage = .handed o ended gone →
    (ended = true → gone = true) ∧ ∃ l, Closed w f fl l

def Answered (w : Group R V E) (c f : Nat) (o : Outcome R V E) (alive : Bool) : Prop :=
  ∃ fl ended gone, w.flights.get f = some fl ∧ fl.stage = .handed o ended gone ∧
    (alive = true → ended = false) ∧ (fl.leader = c ∨ c ∈ fl.followers)

structure Sound (w : Group R V E) : Prop where
  phase : ∀ {c p}, w.phases.get c = some p → PhaseOk w c p
  flight : ∀ {f fl}, w.flights.get f = some fl → FlightOk w f fl
  inFlight : ∀ {f}, w.inFlight = some f → ∃ fl, w.flights.get f = some fl ∧
    (w.phases.get fl.leader = some (.running f) ∨ w.phases.get fl.leader = some (.handing f))
  finished : ∀ {f o ended}, .finished f o ended ∈ w.log →
    ∃ fl, w.flights.get f = some fl ∧ fl.stage.result = some (o,ended)
  answered : ∀ {c f o alive}, .answered c f o alive ∈ w.log → Answered w c f o alive

theorem Closed.mono {l : List (Event R V E)} (h : Closed w f fl l) (hl : w.log <:+ w'.log) :
    Closed w' f fl l := { h with landed := h.landed.trans hl }

theorem FlightOk.mono (h : FlightOk w f fl) (hlo : w.log <:+ w'.log)
    (hla : w.launched ≤ w'.launched) (hin : w'.inFlight = w.inFlight) :
    FlightOk w' f fl := by
  refine ⟨h.launched.trans_le hla,hlo.mem h.started,fun hf => ?_,
    fun c hc => ?_,fun o ended hr => hlo.mem (h.finished o ended hr),fun o ended gone ho => ?_⟩
  · rw [hin]
    exact h.flying hf
  · obtain ⟨hj,hne⟩ := h.joined c hc
    exact ⟨hlo.mem hj,hne⟩
  · obtain ⟨hg,l,hl⟩ := h.closed o ended gone ho
    exact ⟨hg,l,hl.mono hlo⟩

-- The flights kept, for a caller other than the one that moved.
def Grows (m m' : GoMap Nat (Flight R V E)) (d : Nat) : Prop :=
  ∀ {g gl}, m.get g = some gl → ∃ gl', m'.get g = some gl' ∧ gl'.leader = gl.leader ∧
    gl.followers ⊆ gl'.followers ∧ (gl.leader = d → gl'.stage = gl.stage)

theorem grows_refl (m : GoMap Nat (Flight R V E)) (d : Nat) : Grows m m d :=
  fun {_ gl} hg => ⟨gl,hg,rfl,List.Subset.refl _,fun _ => rfl⟩

theorem grows_put {m : GoMap Nat (Flight R V E)} {fl' : Flight R V E} {d : Nat}
    (hf : m.get f = some fl) (hl : fl'.leader = fl.leader)
    (hfo : fl.followers ⊆ fl'.followers) (hs : fl.leader = d → fl'.stage = fl.stage) :
    Grows m (m.put f fl') d := by
  intro g gl hg
  by_cases hgf : g = f
  · subst hgf
    cases hf.symm.trans hg
    exact ⟨fl',get_put_self _ _ _,hl,hfo,hs⟩
  · exact ⟨gl,(get_put_ne _ _ hgf).trans hg,rfl,List.Subset.refl _,fun _ => rfl⟩

theorem PhaseOk.grows {d : Nat} {p : Phase} (h : PhaseOk w d p) (hen : w.ended ⊆ w'.ended)
    (hg : Grows w.flights w'.flights d) : PhaseOk w' d p := by
  cases p with
  | running f =>
    obtain ⟨fl,hf,hl,hs⟩ := h
    obtain ⟨fl',hf',hl',-,hsa⟩ := hg hf
    exact ⟨fl',hf',hl'.trans hl,(hsa hl).trans hs⟩
  | handing f =>
    obtain ⟨fl,o,ended,hf,hl,hs,hed⟩ := h
    obtain ⟨fl',hf',hl',-,hsa⟩ := hg hf
    exact ⟨fl',o,ended,hf',hl'.trans hl,(hsa hl).trans hs,
      fun he => hen (hed he)⟩
  | leading f =>
    obtain ⟨fl,o,ended,gone,hf,hl,hs,hed⟩ := h
    obtain ⟨fl',hf',hl',-,hsa⟩ := hg hf
    exact ⟨fl',o,ended,gone,hf',hl'.trans hl,(hsa hl).trans hs,
      fun he => hen (hed he)⟩
  | waiting f =>
    obtain ⟨fl,hf,hm⟩ := h
    obtain ⟨fl',hf',-,hfo,-⟩ := hg hf
    exact ⟨fl',hf',hfo hm⟩
  | entering | done => trivial

-- Flights that are over stay as they are.
def Keeps (m m' : GoMap Nat (Flight R V E)) : Prop :=
  ∀ {g gl}, m.get g = some gl → gl.stage.isOver = true → m'.get g = some gl

theorem keeps_put {m : GoMap Nat (Flight R V E)} {fl' : Flight R V E}
    (hf : ∀ fl, m.get f = some fl → fl.stage.isOver = false) : Keeps m (m.put f fl') := by
  intro g gl hg ho
  by_cases hgf : g = f
  · subst hgf
    cases (hf gl hg).symm.trans ho
  · exact (get_put_ne _ _ hgf).trans hg

theorem Answered.keeps {o : Outcome R V E} {alive : Bool} (h : Answered w c f o alive)
    (hk : Keeps w.flights w'.flights) : Answered w' c f o alive := by
  obtain ⟨fl,ended,gone,hf,hs,hr⟩ := h
  exact ⟨fl,ended,gone,hk hf (by rw [hs]; rfl),hs,hr⟩

variable {o : Outcome R V E}

section

variable (h : Sound w)

include h

theorem Sound.rephase {p : Phase} (hp : PhaseOk w c p)
    (hid : ∀ f, w.phases.get c ≠ some (.running f) ∧ w.phases.get c ≠ some (.handing f)) :
    Sound { w with phases := w.phases.put c p } := by
  refine ⟨fun {d q} hd => ?_,fun hf => ?_,fun {f} hin => ?_,h.finished,h.answered⟩
  · rcases get_put_eq_some.mp hd with ⟨rfl,rfl⟩ | ⟨-,hd⟩
    · exact hp.grows (Finset.Subset.refl _) (grows_refl _ _)
    · exact (h.phase hd).grows (Finset.Subset.refl _) (grows_refl _ _)
  · exact (h.flight hf).mono (suffix_refl _) (Nat.le_refl _) rfl
  · obtain ⟨fl,hf,hph⟩ := h.inFlight hin
    have hne : fl.leader ≠ c := by
      rintro rfl
      exact hph.elim (hid f).1 (hid f).2
    exact ⟨fl,hf,by simpa only [get_put_ne _ _ hne] using hph⟩

theorem Sound.endContext (c : Nat) : Sound { w with ended := insert c w.ended } where
  __ := h
  phase hd := (h.phase hd).grows (Finset.subset_insert _ _) (grows_refl _ _)
  flight hf := (h.flight hf).mono (suffix_refl _) (Nat.le_refl _) rfl

theorem Sound.launch (hc : w.phases.get c = some .entering)
    (hfe : w.inFlight = none) : Sound (w.launch c) := by
  have hfr : w.flights.get w.launched = none := by
    cases hf : w.flights.get w.launched with
    | none => rfl
    | some fl => exact absurd (h.flight hf).launched (Nat.lt_irrefl _)
  have hold : ∀ {g gl}, w.flights.get g = some gl → (w.launch c).flights.get g = some gl := by
    intro g gl hg
    refine (get_put_ne _ _ ?_).trans hg
    rintro rfl
    cases hfr.symm.trans hg
  have hn : (w.launch c).flights.get w.launched = some ⟨c,[],.running⟩ :=
    get_put_self _ _ _
  have hlo : w.log <:+ (w.launch c).log := suffix_cons _ _
  refine ⟨fun {d q} hd => ?_,fun {g gl} hg => ?_,fun {f} hin => ?_,fun {f o ended} hm => ?_,
    fun {d f o alive} hm => ?_⟩
  · rcases get_put_eq_some.mp hd with ⟨rfl,rfl⟩ | ⟨-,hd⟩
    · exact ⟨_,hn,rfl,rfl⟩
    · exact (h.phase hd).grows (Finset.Subset.refl _)
        fun {g gl} hg => ⟨gl,hold hg,rfl,List.Subset.refl _,fun _ => rfl⟩
  · rcases get_put_eq_some.mp hg with ⟨rfl,rfl⟩ | ⟨-,hg⟩
    · exact ⟨Nat.lt_succ_self _,.head _,fun _ => rfl,forall_mem_nil _,
        fun _ _ hr => (by cases hr),fun _ _ _ ho => (by cases ho)⟩
    · have hok := h.flight hg
      have hov : gl.stage.isOver = true := by
        by_contra hno
        cases hfe.symm.trans (hok.flying (Bool.eq_false_iff.mpr hno))
      refine ⟨Nat.lt_succ_of_lt hok.launched,hlo.mem hok.started,fun hfl => ?_,
        fun d hd => ⟨hlo.mem (hok.joined d hd).1,(hok.joined d hd).2⟩,
        fun o ended hr => hlo.mem (hok.finished o ended hr),fun o ended gone ho => ?_⟩
      · cases hov.symm.trans hfl
      · obtain ⟨hgo,l,hl⟩ := hok.closed o ended gone ho
        exact ⟨hgo,l,hl.mono hlo⟩
  · cases hin
    exact ⟨_,hn,.inl (get_put_self _ _ _)⟩
  · obtain ⟨fl,hf,hr⟩ := h.finished (mem_of_ne_of_mem (by simp) hm)
    exact ⟨fl,hold hf,hr⟩
  · exact (h.answered (mem_of_ne_of_mem (by simp) hm)).keeps fun hg _ => hold hg

-- The moves of a flight in the air: its entry is put anew with the same leader, and only the caller
-- that moves may see another stage.
theorem Sound.put {fl fl' : Flight R V E} {p : Phase} {e : Event R V E} {inFlight : Option Nat}
    (hw' : w' = { w with
      phases := w.phases.put c p
      inFlight := inFlight
      flights := w.flights.put f fl'
      log := e :: w.log })
    (hf : w.flights.get f = some fl) (hai : fl.stage.isOver = false)
    (hle : fl'.leader = fl.leader) (hfo : fl.followers ⊆ fl'.followers)
    (hst : fl.leader = c ∨ fl'.stage = fl.stage)
    (hre : ∀ r, fl.stage.result = some r → fl'.stage.result = some r)
    (hfi : ∀ g o ended, e = .finished g o ended → g = f ∧ fl'.stage.result = some (o,ended))
    (ha : ∀ d g o alive, e ≠ .answered d g o alive)
    (hp : PhaseOk w' c p) (hok : FlightOk w' f fl')
    (hin : inFlight = none ∨ inFlight = some f ∧
      (fl.leader ≠ c ∨ p = .running f ∨ p = .handing f)) : Sound w' := by
  have hon : w.inFlight = some f := (h.flight hf).flying hai
  have hlo : w.log <:+ w'.log := by
    rw [hw']
    exact suffix_cons _ _
  have hs : w'.flights.get f = some fl' := by
    rw [hw']
    exact get_put_self _ _ _
  have hot : ∀ {g}, g ≠ f → w'.flights.get g = w.flights.get g := by
    intro g hg
    rw [hw']
    exact get_put_ne _ _ hg
  have hk : Keeps w.flights w'.flights := by
    rw [hw']
    exact keeps_put fun gl hg => by
      cases hf.symm.trans hg
      exact hai
  refine ⟨fun {d q} hd => ?_,fun {g gl} hg => ?_,fun {g} hg => ?_,fun {g o ended} hm => ?_,
    fun {d g o alive} hm => ?_⟩
  · rw [hw'] at hd
    rcases get_put_eq_some.mp hd with ⟨rfl,rfl⟩ | ⟨hne,hd⟩
    · exact hp
    · refine (h.phase hd).grows ?_ ?_
      · rw [hw']
      · rw [hw']
        refine grows_put hf hle hfo fun hla => ?_
        rcases hst with hc | hsa
        · exact absurd (hla.symm.trans hc) hne
        · exact hsa
  · by_cases hgf : g = f
    · subst hgf
      cases hs.symm.trans hg
      exact hok
    · rw [hot hgf] at hg
      have hold := h.flight hg
      have hov : gl.stage.isOver = true := by
        by_contra hno
        have := hold.flying (Bool.eq_false_iff.mpr hno)
        exact hgf (some.inj (this.symm.trans hon))
      refine ⟨?_,hlo.mem hold.started,fun hfl => ?_,
        fun d hd => ⟨hlo.mem (hold.joined d hd).1,(hold.joined d hd).2⟩,
        fun o ended hr => hlo.mem (hold.finished o ended hr),fun o ended gone ho => ?_⟩
      · rw [hw']
        exact hold.launched
      · cases hov.symm.trans hfl
      · obtain ⟨hgo,l,hl⟩ := hold.closed o ended gone ho
        exact ⟨hgo,l,hl.mono hlo⟩
  · have hg' : inFlight = some g := by
      rwa [hw'] at hg
    rcases hin with hn | ⟨hso,hph⟩
    · cases hn.symm.trans hg'
    · cases hso.symm.trans hg'
      refine ⟨fl',hs,?_⟩
      rw [hle,hw']
      by_cases hc : fl.leader = c
      · rw [hc]
        simpa [get_put_self,some.injEq] using hph.resolve_left (not_not.mpr hc)
      · simp [get_put_ne _ _ hc]
        obtain ⟨fl₀,hf₀,hp₀⟩ := h.inFlight hon
        cases hf.symm.trans hf₀
        exact hp₀
  · rw [hw'] at hm
    rcases mem_cons.mp hm with heq | hm
    · obtain ⟨rfl,hr⟩ := hfi g o ended heq.symm
      exact ⟨fl',hs,hr⟩
    · obtain ⟨gl,hg,hr⟩ := h.finished hm
      by_cases hgf : g = f
      · subst hgf
        cases hf.symm.trans hg
        exact ⟨fl',hs,hre _ hr⟩
      · exact ⟨gl,(hot hgf).trans hg,hr⟩
  · rw [hw'] at hm
    rcases mem_cons.mp hm with heq | hm
    · exact absurd heq.symm (ha d g o alive)
    · exact (h.answered hm).keeps hk

theorem Sound.leader_ne (hc : w.phases.get c = some .entering)
    (hin : w.inFlight = some f) (hf : w.flights.get f = some fl) : fl.leader ≠ c := by
  rintro rfl
  obtain ⟨fl₀,hf₀,hp⟩ := h.inFlight hin
  cases hf.symm.trans hf₀
  rw [hc] at hp
  rcases hp with hp | hp
  · cases hp
  · cases hp

theorem Sound.flying (hin : w.inFlight = some f) (hf : w.flights.get f = some fl) :
    fl.stage.isOver = false := by
  obtain ⟨fl₀,hf₀,hp⟩ := h.inFlight hin
  cases hf.symm.trans hf₀
  rcases hp with hp | hp
  · obtain ⟨gl,hg,-,hs⟩ := h.phase hp
    cases hf.symm.trans hg
    rw [hs]
    rfl
  · obtain ⟨gl,o,ended,hg,-,hs,-⟩ := h.phase hp
    cases hf.symm.trans hg
    rw [hs]
    rfl

theorem Sound.join (hc : w.phases.get c = some .entering)
    (hin : w.inFlight = some f) (hf : w.flights.get f = some fl) : Sound (w.join c f fl) := by
  have hne := h.leader_ne hc hin hf
  have ha := h.flying hin hf
  have hok := h.flight hf
  have hse : (w.join c f fl).flights.get f = some { fl with followers := c :: fl.followers } :=
    get_put_self _ _ _
  refine h.put rfl hf ha rfl (subset_cons_self _ _) (.inr rfl) (fun _ hr => hr)
    (fun _ _ _ he => by cases he) (fun _ _ _ _ he => by cases he)
    ⟨_,hse,.head _⟩ ?_ (.inr ⟨hin,.inl hne⟩)
  refine ⟨hok.launched,.tail _ hok.started,fun _ => hin,?_,
    fun o ended hr => .tail _ (hok.finished o ended hr),fun o ended gone ho => ?_⟩
  · exact forall_mem_cons.mpr ⟨⟨.head _,hne.symm⟩,
      fun d hd => ⟨.tail _ (hok.joined d hd).1,(hok.joined d hd).2⟩⟩
  · have hs : fl.stage = .handed o ended gone := ho
    rw [hs] at ha
    cases ha

theorem Sound.finish (hc : w.phases.get c = some (.running f))
    (hf : w.flights.get f = some fl) (o : Outcome R V E) : Sound (w.finish c f fl o) := by
  obtain ⟨gl,hg,hl,hs⟩ := h.phase hc
  cases hf.symm.trans hg
  have ha : fl.stage.isOver = false := by
    rw [hs]
    rfl
  have hok := h.flight hf
  have hse : (w.finish c f fl o).flights.get f =
      some { fl with stage := .returned o (decide (c ∈ w.ended)) } := get_put_self _ _ _
  refine h.put rfl hf ha rfl (List.Subset.refl _) (.inl hl) (fun r hr => ?_)
    (fun g o' ended he => ?_) (fun _ _ _ _ he => by cases he)
    ⟨_,o,_,hse,hl,rfl,of_decide_eq_true⟩ ?_ (.inr ⟨hok.flying ha,.inr (.inr rfl)⟩)
  · rw [hs] at hr
    cases hr
  · cases he
    exact ⟨rfl,rfl⟩
  · refine ⟨hok.launched,.tail _ hok.started,fun _ => hok.flying ha,
      fun d hd => ⟨.tail _ (hok.joined d hd).1,(hok.joined d hd).2⟩,
      fun o' ended hr => ?_,fun _ _ _ ho => by cases ho⟩
    cases hr
    exact .head _

theorem Sound.land (hc : w.phases.get c = some (.handing f))
    (hf : w.flights.get f = some fl) {ended : Bool} (hre : fl.stage.result = some (o,ended)) :
    Sound (w.land c f fl o ended) := by
  obtain ⟨gl,o₀,ended₀,hg,hl,hs,hen⟩ := h.phase hc
  cases hf.symm.trans hg
  rw [hs] at hre
  cases hre
  have ha : fl.stage.isOver = false := by
    rw [hs]
    rfl
  have hok := h.flight hf
  have hse : (w.land c f fl o ended).flights.get f =
      some { fl with stage := .handed o ended (decide (c ∈ w.ended)) } := get_put_self _ _ _
  refine h.put rfl hf ha rfl (List.Subset.refl _) (.inl hl) (fun r hr => ?_)
    (fun _ _ _ he => by cases he) (fun _ _ _ _ he => by cases he)
    ⟨_,o,ended,_,hse,hl,rfl,hen⟩ ?_ (.inl rfl)
  · rwa [hs] at hr
  · refine ⟨hok.launched,.tail _ hok.started,fun hfl => (by cases hfl),
      fun d hd => ⟨.tail _ (hok.joined d hd).1,(hok.joined d hd).2⟩,
      fun o' ended' hr => ?_,fun o' ended' gone ho => ?_⟩
    · cases hr
      refine .tail _ (hok.finished o ended ?_)
      rw [hs]
      rfl
    · cases ho
      exact ⟨fun he => decide_eq_true (hen he),w.log,suffix_refl _,hok.started,
        fun d hd => (hok.joined d hd).1⟩

theorem Sound.answer
    (hid : ∀ f, w.phases.get c ≠ some (.running f) ∧ w.phases.get c ≠ some (.handing f))
    (ha : Answered w c f o (decide (c ∉ w.ended))) : Sound (w.answer c f o) := by
  have hdo := h.rephase (p := .done) trivial hid
  refine ⟨fun hd => (hdo.phase hd).grows (Finset.Subset.refl _) (grows_refl _ _),
    fun hf => (hdo.flight hf).mono (suffix_cons _ _) (Nat.le_refl _) rfl,hdo.inFlight,
    fun hm => h.finished (mem_of_ne_of_mem (by simp) hm),fun {d g o' alive} hm => ?_⟩
  rcases mem_cons.mp hm with heq | hm
  · cases heq
    exact ha
  · exact h.answered hm

theorem Sound.moves (hm : Moves w w') : Sound w' := by
  cases hm with
  | arrive hn => exact h.rephase trivial fun f => by rw [hn]; exact ⟨nofun,nofun⟩
  | endContext c => exact h.endContext c
  | launch hc hfr => exact h.launch hc hfr
  | join hc hin hf => exact h.join hc hin hf
  | finish hc hf o => exact h.finish hc hf o
  | land hc hf hr => exact h.land hc hf hr
  | again hc hf => exact h.rephase trivial fun f => by rw [hc]; exact ⟨nofun,nofun⟩
  | leave hc hf hr =>
    obtain ⟨gl,o₀,ended₀,gone,hg,hl,hs,hen⟩ := h.phase hc
    cases hf.symm.trans hg
    rw [hs] at hr
    cases hr
    refine h.answer (fun f => by rw [hc]; exact ⟨nofun,nofun⟩)
      ⟨_,_,gone,hf,hs,fun ha => Bool.eq_false_iff.mpr fun he => ?_,.inl hl⟩
    exact of_decide_eq_true ha (hen he)
  | share hc hf ho hgo =>
    obtain ⟨gl,hg,hme⟩ := h.phase hc
    cases hf.symm.trans hg
    refine h.answer (fun f => by rw [hc]; exact ⟨nofun,nofun⟩)
      ⟨_,_,_,hf,ho,fun ha => Bool.eq_false_iff.mpr fun he => ?_,.inr hme⟩
    exact of_decide_eq_true ha (hgo (((h.flight hf).closed _ _ _ ho).1 he))

end

end Invariant

def Runs (w : Group R V E) (c : Nat) : Prop :=
  ∃ f, w.phases.get c = some (.running f) ∨ w.phases.get c = some (.handing f)

theorem Sound.runs (h : Sound w) {c : Nat} (hc : Runs w c) :
    ∃ f fl, w.inFlight = some f ∧ w.flights.get f = some fl ∧ fl.leader = c := by
  obtain ⟨f,hp | hp⟩ := hc
  · obtain ⟨fl,hf,hl,hs⟩ := h.phase hp
    exact ⟨f,fl,(h.flight hf).flying (by rw [hs]; rfl),hf,hl⟩
  · obtain ⟨fl,o,ended,hf,hl,hs,-⟩ := h.phase hp
    exact ⟨f,fl,(h.flight hf).flying (by rw [hs]; rfl),hf,hl⟩

theorem shares_living_flights (h : Run.Reaches (step (R := R) (V := V) (E := E))
    (fun _ _ => True) new w) :
    (∀ c d, Runs w c → Runs w d → c = d) ∧
    (∀ c f o alive, .answered c f o alive ∈ w.log →
      (∃ ended, .finished f o ended ∈ w.log) ∧
      (.started c f ∈ w.log ∨ ∃ d l, d ≠ c ∧ .landed f :: l <:+ w.log ∧ .started d f ∈ l ∧
        .joined c f ∈ l)) ∧
    ∀ c f o o' ended, .answered c f o true ∈ w.log → .finished f o' ended ∈ w.log →
      ended = false := by
  have hn : Sound (new : Group R V E) :=
    ⟨nofun,nofun,nofun,nofun,nofun⟩
  have hso : Sound w :=
    h.invariant _ hn fun _ _ _ hs _ hse => hs.moves (moves_of_step hse)
  refine ⟨fun c d hc hd => ?_,fun c f o alive hm => ?_,fun c f o o' ended hm hfi => ?_⟩
  · obtain ⟨f,fl,hin,hf,rfl⟩ := hso.runs hc
    obtain ⟨g,gl,hi',hg,rfl⟩ := hso.runs hd
    cases hin.symm.trans hi'
    cases hf.symm.trans hg
    rfl
  · obtain ⟨fl,ended,gone,hf,hst,-,hw⟩ := hso.answered hm
    have hok := hso.flight hf
    refine ⟨⟨ended,hok.finished o ended (by rw [hst]; rfl)⟩,?_⟩
    rcases hw with rfl | hfo
    · exact .inl hok.started
    · obtain ⟨-,l,hl⟩ := hok.closed o ended gone hst
      exact .inr ⟨fl.leader,l,(hok.joined c hfo).2.symm,hl.landed,hl.started,
        hl.joined c hfo⟩
  · obtain ⟨fl,ended₀,gone,hf,hst,ha,-⟩ := hso.answered hm
    obtain ⟨gl,hg,hr⟩ := hso.finished hfi
    cases hf.symm.trans hg
    rw [hst] at hr
    cases hr
    exact ha rfl

-- Caller 1 leads and its client leaves; 2 and 3 waited, 2 leads next and 3 shares its answer.
def abandonedLeader : List (Act Nat Nat Nat) :=
  [.arrive 1,.arrive 2,.arrive 3,.enter 1,.enter 2,.enter 3,.endContext 1,
    .relayReturns 1 ⟨none,none,some 7⟩,.handOver 1,.receive 2,.receive 3,.enter 2,.enter 3,
    .relayReturns 2 ⟨some 5,none,none⟩,.handOver 2,.leave 1,.leave 2,.receive 3]

theorem follower_outlives_first_leader :
    ∃ w : Group Nat Nat Nat, Run.Reaches step (fun _ _ => True) new w ∧
      .answered 3 1 ⟨some 5,none,none⟩ true ∈ w.log ∧ .finished 0 ⟨none,none,some 7⟩ true ∈ w.log ∧
      ∀ c f o o' ended, .answered c f o true ∈ w.log → .finished f o' ended ∈ w.log →
        ended = false := by
  obtain ⟨w,hr,ha,hf⟩ : ∃ w : Group Nat Nat Nat,
      Run.Reaches step (fun _ _ => True) new w ∧ .answered 3 1 ⟨some 5,none,none⟩ true ∈ w.log ∧
      .finished 0 ⟨none,none,some 7⟩ true ∈ w.log :=
    Run.reaches abandonedLeader (by decide +kernel)
  exact ⟨w,hr,ha,hf,(shares_living_flights hr).2.2⟩

-- Caller 2 enters Do after the relay returned and before Do gives the flight up.
def lateCaller : List (Act Nat Nat Nat) :=
  [.arrive 1,.arrive 2,.enter 1,.relayReturns 1 ⟨some 5,none,none⟩,.enter 2,.handOver 1,.leave 1,
    .receive 2]

theorem late_caller_shares_a_returned_relay :
    ∃ w : Group Nat Nat Nat, Run.Reaches step (fun _ _ => True) new w ∧
      .answered 2 0 ⟨some 5,none,none⟩ true ∈ w.log ∧ .started 1 0 ∈ w.log ∧
      ∃ l l', w.log = l ++ .finished 0 ⟨some 5,none,none⟩ false :: l' ∧ .joined 2 0 ∉ l' := by
  obtain ⟨w,hr,hw⟩ : ∃ w : Group Nat Nat Nat, Run.Reaches step (fun _ _ => True) new w ∧
      w.log = [.answered 2 0 ⟨some 5,none,none⟩ true,.answered 1 0 ⟨some 5,none,none⟩ true,
        .landed 0,.joined 2 0,.finished 0 ⟨some 5,none,none⟩ false,.started 1 0] :=
    Run.reaches lateCaller (by decide +kernel)
  refine ⟨w,hr,?_⟩
  rw [hw]
  exact ⟨by decide,by decide,[_,_,_,_],[_],rfl,by decide⟩

end Group

end SageGateway.Singleflight
