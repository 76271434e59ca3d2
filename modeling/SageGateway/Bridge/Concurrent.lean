import SageGateway.Bridge
import SageGateway.Lib.SlidingWindow

namespace SageGateway

open Option GoMap

inductive BridgeMessage where
  | client
  | endpoint (conn : Nat)
  deriving DecidableEq

inductive Routing where
  | loaded (msg : BridgeMessage) (endpoint : Nat)
  | written (conn : Nat)
  deriving DecidableEq

inductive RouteOutcome where
  | failed (call : Nat)
  | consumed
  | sent
  | unsent
  deriving DecidableEq

inductive RebindCall where
  | checking (conn : Nat)
  | loading (planned : Bool)
  | waiting (conn : Nat) (planned : Bool)
  | locked (conn : Nat) (planned : Bool)
  | timed (conn : Nat) (planned : Bool) (now : Int)
  | handling (conn : Nat) (planned : Bool)
  | closing
  deriving DecidableEq

inductive BridgeEvent where
  | started (conn : Nat) (now : Int) (planned : Bool)
  | limited (planned : Bool)
  | abandoned (planned : Bool)
  | replaced (conn : Nat) (now : Int) (planned : Bool)
  | delivered (conn : Nat)
  | counted (conn : Nat)
  deriving DecidableEq

structure RebindOptions where
  rebindLimit : Int
  endpointLost : Bool
  observer : Bool
  deriving DecidableEq

structure SharedBridge where
  clock : Int
  canceled : Bool
  endpointConn : Nat
  losses : List Int
  writer : Option Nat
  routing : Option Routing
  msgChan : List BridgeMessage
  calls : GoMap Nat RebindCall

namespace SharedBridge

def start (clock : Int) : SharedBridge := ⟨clock,false,0,[],none,none,[],∅⟩

def recentLosses (losses : List Int) (now : Int) : List Int :=
  SlidingWindow.recent Bridge.rebindWindow now losses

def setCall (b : SharedBridge) (n : Nat) (c : RebindCall) : SharedBridge :=
  { b with calls := b.calls.put n c }

def endCall (b : SharedBridge) (n : Nat) : SharedBridge := { b with calls := b.calls.del n }

def call (b : SharedBridge) (n : Nat) (c : RebindCall) : Option SharedBridge :=
  if b.calls.has n then none else some (b.setCall n c)

def unlock (b : SharedBridge) : SharedBridge := { b with writer := none }

def quietly (b : Option SharedBridge) : Option (SharedBridge × List BridgeEvent) :=
  b.map fun b => (b,[])

def route (b : SharedBridge) : Option SharedBridge :=
  match b.writer, b.routing, b.msgChan with
  | none, none, msg :: rest =>
      some { b with routing := some (.loaded msg b.endpointConn), msgChan := rest }
  | _, _, _ => none

def routeClient (o : RebindOptions) (b : SharedBridge) : RouteOutcome → SharedBridge
  | .failed _ => { b with routing := none, canceled := true }
  | .unsent => { b with routing := none, canceled := b.canceled || !o.endpointLost }
  | _ => { b with routing := none }

def routeEndpoint (b : SharedBridge) (conn : Nat) :
    RouteOutcome → Option (SharedBridge × List BridgeEvent)
  | .failed n => quietly ({ b with routing := none }.call n (.checking conn))
  | .consumed => some ({ b with routing := none },[])
  | .sent => some ({ b with routing := some (.written conn) },[.delivered conn])
  | .unsent => some ({ b with routing := none, canceled := true },[])

def settle (o : RebindOptions) (b : SharedBridge) (outcome : RouteOutcome) :
    Option (SharedBridge × List BridgeEvent) :=
  match b.routing with
  | some (.loaded .client _) => some (b.routeClient o outcome,[])
  | some (.loaded (.endpoint conn) endpoint) =>
      if conn ≠ endpoint then some ({ b with routing := none },[])
      else b.routeEndpoint conn outcome
  | _ => none

def observe (o : RebindOptions) (b : SharedBridge) : Option (SharedBridge × List BridgeEvent) :=
  match b.routing with
  | some (.written conn) =>
      some ({ b with routing := none },if o.observer then [.counted conn] else [])
  | _ => none

def lock (b : SharedBridge) (n conn : Nat) (planned : Bool) : Option SharedBridge :=
  match b.writer, b.routing with
  | none, none =>
      if b.endpointConn ≠ conn then some (b.endCall n)
      else some ({ b with writer := some n }.setCall n (.locked conn planned))
  | _, _ => none

def limit (o : RebindOptions) (b : SharedBridge) (n conn : Nat) (planned : Bool) (now : Int) :
    SharedBridge × List BridgeEvent :=
  let b := { b with losses := recentLosses b.losses now }
  if !planned ∧ o.rebindLimit ≤ b.losses.length then
    (b.unlock.setCall n .closing,[.limited planned])
  else (b.setCall n (.handling conn planned),[.started conn b.clock planned])

def replace (b : SharedBridge) (n conn : Nat) (planned ok : Bool) :
    SharedBridge × List BridgeEvent :=
  if !ok then (b.unlock.setCall n .closing,[.abandoned planned])
  else if b.canceled then (b.unlock.endCall n,[.abandoned planned])
  else
    ({ b.unlock with
        endpointConn := b.endpointConn + 1
        losses := if planned then b.losses else b.losses ++ [b.clock] }.endCall n,
      [.replaced conn b.clock planned])

def endpointGone (o : RebindOptions) (b : SharedBridge) (n conn : Nat) : SharedBridge :=
  if !o.endpointLost ∨ b.canceled then { b with canceled := true }.endCall n
  else b.setCall n (.waiting conn false)

def replaceEndpoint (o : RebindOptions) (b : SharedBridge) (n : Nat) (planned : Bool) :
    Option SharedBridge :=
  if b.canceled then some b
  else if !o.endpointLost then some { b with canceled := true }
  else b.call n (.loading planned)

def canRebind (o : RebindOptions) (b : SharedBridge) (now : Int) : SharedBridge :=
  if !o.endpointLost then b else { b with losses := recentLosses b.losses now }

def advance (o : RebindOptions) (b : SharedBridge) (n : Nat) (ok : Bool) :
    RebindCall → Option (SharedBridge × List BridgeEvent)
  | .checking conn => some (b.endpointGone o n conn,[])
  | .loading planned => some (b.setCall n (.waiting b.endpointConn planned),[])
  | .waiting conn planned => quietly (b.lock n conn planned)
  | .locked conn planned => some (b.setCall n (.timed conn planned b.clock),[])
  | .timed conn planned now => some (b.limit o n conn planned now)
  | .handling conn planned => some (b.replace n conn planned ok)
  | .closing => some ({ b with canceled := true }.endCall n,[])

inductive Act where
  | tick (t : Int)
  | readClient
  | read (conn : Nat)
  | route
  | settle (outcome : RouteOutcome)
  | observe
  | endpointGone (n conn : Nat)
  | replaceEndpoint (n : Nat) (planned : Bool)
  | advance (n : Nat) (ok : Bool)
  | canRebind (now : Int)
  | shutdown
  deriving DecidableEq

def step (o : RebindOptions) (b : SharedBridge) : Act → Option (SharedBridge × List BridgeEvent)
  | .tick t => quietly (if b.clock ≤ t then some { b with clock := t } else none)
  | .readClient => quietly (some { b with msgChan := b.msgChan ++ [.client] })
  | .read conn =>
      quietly (if conn ≤ b.endpointConn then
        some { b with msgChan := b.msgChan ++ [.endpoint conn] } else none)
  | .route => quietly b.route
  | .settle outcome => b.settle o outcome
  | .observe => b.observe o
  | .endpointGone n conn =>
      quietly (if conn ≤ b.endpointConn then b.call n (.checking conn) else none)
  | .replaceEndpoint n planned => quietly (b.replaceEndpoint o n planned)
  | .advance n ok => (b.calls.get n).bind (b.advance o n ok)
  | .canRebind now => quietly (if now ≤ b.clock then some (b.canRebind o now) else none)
  | .shutdown => quietly (some { b with canceled := true })

end SharedBridge

def Routing.endpointConn : Routing → Nat
  | .loaded _ endpoint => endpoint
  | .written conn => conn

def RebindCall.held : RebindCall → Option Nat
  | .locked conn _ => some conn
  | .timed conn _ _ => some conn
  | .handling conn _ => some conn
  | _ => none

def RebindCall.handled : RebindCall → Option Bool
  | .handling _ planned => some planned
  | _ => none

namespace SharedBridge

def rebinding (b : SharedBridge) : Option Bool :=
  b.writer.bind fun n => (b.calls.get n).bind RebindCall.handled

structure Sound (b : SharedBridge) : Prop where
  writer : ∀ n, b.writer = some n →
    b.routing = none ∧ ∃ c, b.calls.get n = some c ∧ c.held = some b.endpointConn
  held : ∀ n c conn, b.calls.get n = some c → c.held = some conn → b.writer = some n
  routed : ∀ r, b.routing = some r → r.endpointConn = b.endpointConn
  timed : ∀ n conn planned now, b.calls.get n = some (.timed conn planned now) → now ≤ b.clock

theorem sound_start (clock : Int) : Sound (start clock) where
  writer n h := by cases h
  held n c conn h := by cases h
  routed r h := by cases h
  timed n conn planned now h := by cases h

def Prunes (b b' : SharedBridge) : Prop :=
  b'.losses = b.losses ∨ ∃ now ≤ b.clock, b'.losses = recentLosses b.losses now

structure Elsewhere (b : SharedBridge) (calls : GoMap Nat RebindCall) : Prop where
  idle : ∀ m c, calls.get m = some c → b.calls.get m = some c ∨ c.held = none
  holder : ∀ m, b.writer = some m → calls.get m = b.calls.get m

inductive RebindStep (o : RebindOptions) (b b' : SharedBridge) : List BridgeEvent → Prop
  | quiet (hclock : b.clock ≤ b'.clock) (hconn : b'.endpointConn = b.endpointConn)
      (hlosses : Prunes b b') (hopen : b'.rebinding = b.rebinding) : RebindStep o b b' []
  | started (planned : Bool) (hclock : b'.clock = b.clock)
      (hconn : b'.endpointConn = b.endpointConn) (hlosses : Prunes b b')
      (hopen : b.rebinding = none) (hopen' : b'.rebinding = some planned)
      (hlimit : planned = false → b'.losses.length < o.rebindLimit) :
      RebindStep o b b' [.started b.endpointConn b.clock planned]
  | limited (hclock : b'.clock = b.clock) (hconn : b'.endpointConn = b.endpointConn)
      (hlosses : Prunes b b') (hopen : b'.rebinding = b.rebinding) :
      RebindStep o b b' [.limited false]
  | abandoned (planned : Bool) (hclock : b'.clock = b.clock)
      (hconn : b'.endpointConn = b.endpointConn) (hlosses : b'.losses = b.losses)
      (hopen : b.rebinding = some planned) (hopen' : b'.rebinding = none) :
      RebindStep o b b' [.abandoned planned]
  | replaced (planned : Bool) (hclock : b'.clock = b.clock)
      (hconn : b'.endpointConn = b.endpointConn + 1)
      (hlosses : b'.losses = if planned then b.losses else b.losses ++ [b.clock])
      (hopen : b.rebinding = some planned) (hopen' : b'.rebinding = none) :
      RebindStep o b b' [.replaced b.endpointConn b.clock planned]
  | delivered (hclock : b'.clock = b.clock) (hconn : b'.endpointConn = b.endpointConn)
      (hlosses : b'.losses = b.losses) (hopen : b'.rebinding = b.rebinding) :
      RebindStep o b b' [.delivered b.endpointConn]
  | counted (hclock : b'.clock = b.clock) (hconn : b'.endpointConn = b.endpointConn)
      (hlosses : b'.losses = b.losses) (hopen : b'.rebinding = b.rebinding) :
      RebindStep o b b' [.counted b.endpointConn]

variable {o : RebindOptions} {b b' : SharedBridge} {n : Nat} {c : RebindCall}
  {evs : List BridgeEvent}

theorem rebinding_of_writer_none (h : b.writer = none) : b.rebinding = none := by
  rw [rebinding,h,bind_none]

theorem rebinding_of_writer (h : b.writer = some n) (hg : b.calls.get n = some c) :
    b.rebinding = c.handled := by
  rw [rebinding,h,bind_some,hg,bind_some]

theorem rebinding_setCall (h : b.writer = some n) (c : RebindCall) :
    (b.setCall n c).rebinding = c.handled :=
  rebinding_of_writer (b := b.setCall n c) h (get_put_self _ _ _)

theorem elsewhere_refl (b : SharedBridge) : Elsewhere b b.calls where
  idle _ _ hget := Or.inl hget
  holder _ _ := rfl

theorem elsewhere_put (hw : b.writer ≠ some n) (hh : c.held = none) :
    Elsewhere b (b.calls.put n c) where
  idle _ d hget := by
    rcases get_put_eq_some.mp hget with ⟨-,rfl⟩ | ⟨-,hg'⟩
    · exact Or.inr hh
    · exact Or.inl hg'
  holder _ hm := get_put_ne _ _ fun heq => hw (heq ▸ hm)

theorem elsewhere_del (hw : b.writer ≠ some n) : Elsewhere b (b.calls.del n) where
  idle _ _ hget := Or.inl (get_del_eq_some.mp hget).2
  holder _ hm := get_del_ne _ fun heq => hw (heq ▸ hm)

namespace Sound

section

variable (h : Sound b)

include h

theorem ne_writer (hg : b.calls.get n = some c) (hh : c.held = none) : b.writer ≠ some n := by
  intro hw
  obtain ⟨-,c',hg',hh'⟩ := h.writer n hw
  rw [hg] at hg'
  cases hg'
  rw [hh] at hh'
  cases hh'

theorem holder (hg : b.calls.get n = some c) {conn : Nat} (hh : c.held = some conn) :
    b.writer = some n ∧ b.routing = none ∧ conn = b.endpointConn := by
  have hw := h.held n c conn hg hh
  obtain ⟨hr,c',hg',hh'⟩ := h.writer n hw
  rw [hg] at hg'
  cases hg'
  rw [hh] at hh'
  exact ⟨hw,hr,some.inj hh'⟩

theorem others_idle (hw : b.writer = some n) {m : Nat} (hne : m ≠ n)
    (hg : b.calls.get m = some c) : c.held = none := by
  cases hh : c.held with
  | none => rfl
  | some conn =>
    have hm := h.held m c conn hg hh
    rw [hw] at hm
    exact absurd (some.inj hm).symm hne

theorem keep (hw : b'.writer = b.writer)
    (hco : b'.endpointConn = b.endpointConn) (hcl : b.clock ≤ b'.clock)
    (hro : ∀ r, b'.routing = some r → b.writer = none ∧ r.endpointConn = b.endpointConn)
    (hc : Elsewhere b b'.calls) : Sound b' ∧ b'.rebinding = b.rebinding := by
  refine ⟨⟨?_,?_,?_,?_⟩,?_⟩
  · intro m hm
    rw [hw] at hm
    obtain ⟨-,d,hg,hh⟩ := h.writer m hm
    refine ⟨?_,d,(hc.holder m hm).trans hg,hco.symm ▸ hh⟩
    cases hr : b'.routing with
    | none => rfl
    | some r =>
      have hn := (hro r hr).1
      cases hm.symm.trans hn
  · intro m d conn hg hh
    rcases hc.idle m d hg with hg' | hn
    · rw [hw]
      exact h.held m d conn hg' hh
    · cases hn.symm.trans hh
  · intro r hr
    rw [hco]
    exact (hro r hr).2
  · intro m conn planned now hg
    rcases hc.idle m _ hg with hg' | hn
    · exact (h.timed m conn planned now hg').trans hcl
    · cases hn
  · rw [rebinding,rebinding,hw]
    cases hwr : b.writer with
    | none => rfl
    | some m => rw [bind_some,bind_some,hc.holder m hwr]

theorem rerouted (routing : Option Routing)
    (hr : ∀ r, routing = some r → b.writer = none ∧ r.endpointConn = b.endpointConn) :
    Sound { b with routing := routing } ∧
      rebinding { b with routing := routing } = b.rebinding :=
  h.keep rfl rfl (Int.le_refl _) hr (elsewhere_refl b)

theorem release (hw : b.writer = some n) (hw' : b'.writer = none)
    (hro : b'.routing = b.routing)
    (hc : ∀ m d, b'.calls.get m = some d → (m ≠ n ∧ b.calls.get m = some d) ∨ d.held = none) :
    Sound b' := by
  have hid : ∀ m d, b'.calls.get m = some d → d.held = none := by
    intro m d hg
    rcases hc m d hg with ⟨hne,hg'⟩ | hn
    · exact h.others_idle hw hne hg'
    · exact hn
  refine ⟨?_,?_,?_,?_⟩
  · intro m hm
    cases hw'.symm.trans hm
  · intro m d conn hg hh
    cases (hid m d hg).symm.trans hh
  · intro r hr
    rw [hro,(h.writer n hw).1] at hr
    cases hr
  · intro m conn planned now hg
    cases hid m _ hg

theorem hold (hf : ∀ m, b.writer = some m → m = n) (hro : b.routing = none)
    (hh : c.held = some b.endpointConn)
    (ht : ∀ conn planned now, c = .timed conn planned now → now ≤ b.clock) (losses : List Int) :
    Sound ({ b with writer := some n, losses := losses }.setCall n c) := by
  refine ⟨?_,?_,?_,?_⟩
  · rintro m ⟨⟩
    exact ⟨hro,c,get_put_self _ _ _,hh⟩
  · intro m d conn hg hd
    rcases get_put_eq_some.mp hg with ⟨rfl,-⟩ | ⟨hne,hg'⟩
    · rfl
    · exact absurd (hf m (h.held m d conn hg' hd)) hne
  · intro r hr
    cases (show b.routing = some r from hr).symm.trans hro
  · intro m conn planned now hg
    rcases get_put_eq_some.mp hg with ⟨rfl,hc⟩ | ⟨-,hg'⟩
    · exact ht conn planned now hc
    · exact h.timed m conn planned now hg'

theorem routing_free (r : Routing) (hr : b.routing = some r) :
    b.writer = none ∧ r.endpointConn = b.endpointConn := by
  refine ⟨?_,h.routed r hr⟩
  cases hw : b.writer with
  | none => rfl
  | some m =>
    cases ((h.writer m hw).1).symm.trans hr

end

end Sound

def Follows (o : RebindOptions) (b : SharedBridge) (r : SharedBridge × List BridgeEvent) : Prop :=
  Sound r.1 ∧ RebindStep o b r.1 r.2

theorem Sound.quiet (h : Sound b) (hw : b'.writer = b.writer)
    (hco : b'.endpointConn = b.endpointConn) (hc : b.clock ≤ b'.clock)
    (hl : Prunes b b')
    (hr : ∀ r, b'.routing = some r → b.writer = none ∧ r.endpointConn = b.endpointConn)
    (hca : Elsewhere b b'.calls) : Follows o b (b',[]) := by
  obtain ⟨hs,ho⟩ := h.keep hw hco hc hr hca
  exact ⟨hs,.quiet hc hco hl ho⟩

variable {planned : Bool} {conn : Nat} {r : SharedBridge × List BridgeEvent}

theorem follows_quietly {x : Option SharedBridge}
    (hr : quietly x = some r) (h : ∀ b', x = some b' → Follows o b (b',[])) : Follows o b r := by
  obtain ⟨b',hx,rfl⟩ := map_eq_some_iff.mp hr
  exact h b' hx

section

variable (h : Sound b)

include h

theorem Sound.unrouted (canceled : Bool) {calls : GoMap Nat RebindCall}
    (hc : Elsewhere b calls) :
    Follows o b ({ b with routing := none, canceled := canceled, calls := calls },[]) := by
  refine h.quiet rfl rfl (Int.le_refl _) (Or.inl rfl) ?_ hc
  nofun

theorem Sound.elsewhere (canceled : Bool) {calls : GoMap Nat RebindCall}
    (hc : Elsewhere b calls) :
    Follows o b ({ b with canceled := canceled, calls := calls },[]) :=
  h.quiet rfl rfl (Int.le_refl _) (Or.inl rfl) h.routing_free hc

theorem Sound.elsewhere_call (hf : ¬b.calls.has n = true)
    (hh : c.held = none) : Elsewhere b (b.calls.put n c) := by
  apply elsewhere_put ?_ hh
  intro hw
  obtain ⟨-,d,hg,-⟩ := h.writer n hw
  exact hf ((has_iff _ _).mpr ⟨d,hg⟩)

theorem follows_call (hh : c.held = none) (hc : b.call n c = some b') :
    Follows o b (b',[]) := by
  obtain ⟨hf,hset⟩ := ite_none_left_eq_some.mp hc
  cases hset
  exact h.elsewhere b.canceled (h.elsewhere_call hf hh)

theorem follows_route (hro : b.route = some b') : Follows o b (b',[]) := by
  unfold route at hro
  split at hro
  · next msg rest hw _ _ =>
    cases hro
    refine h.quiet rfl rfl (Int.le_refl _) (Or.inl rfl) ?_ (elsewhere_refl b)
    rintro r ⟨⟩
    exact ⟨hw,rfl⟩
  · cases hro

theorem follows_routeClient (outcome : RouteOutcome) :
    Follows o b (b.routeClient o outcome,[]) := by
  cases outcome <;> exact h.unrouted _ (elsewhere_refl b)

theorem follows_routeEndpoint (hw : b.writer = none)
    (hc : conn = b.endpointConn) {outcome : RouteOutcome}
    (hr : b.routeEndpoint conn outcome = some r) : Follows o b r := by
  subst hc
  cases outcome with
  | failed n =>
    refine follows_quietly hr fun b' hca => ?_
    obtain ⟨hf,hset⟩ := ite_none_left_eq_some.mp hca
    cases hset
    exact h.unrouted b.canceled (h.elsewhere_call hf rfl)
  | consumed =>
    cases hr
    exact h.unrouted b.canceled (elsewhere_refl b)
  | sent =>
    cases hr
    obtain ⟨hs,ho⟩ := h.rerouted (some (.written b.endpointConn)) fun r hr => by
      cases hr
      exact ⟨hw,rfl⟩
    exact ⟨hs,.delivered rfl rfl rfl ho⟩
  | unsent =>
    cases hr
    exact h.unrouted true (elsewhere_refl b)

theorem follows_settle {outcome : RouteOutcome} (hr : b.settle o outcome = some r) :
    Follows o b r := by
  unfold settle at hr
  split at hr
  · cases hr
    exact follows_routeClient h outcome
  · next conn endpoint hro =>
    obtain ⟨hw,he⟩ := h.routing_free _ hro
    split at hr
    · cases hr
      exact h.unrouted b.canceled (elsewhere_refl b)
    · next heq => exact follows_routeEndpoint h hw ((not_not.mp heq).trans he) hr
  · cases hr

theorem follows_observe (hr : b.observe o = some r) : Follows o b r := by
  unfold observe at hr
  split at hr
  · next conn hro =>
    cases hr
    obtain rfl : conn = b.endpointConn := h.routed _ hro
    obtain ⟨hs,ho⟩ := h.rerouted none fun r hr => by cases hr
    cases o.observer with
    | false => exact ⟨hs,.quiet (Int.le_refl _) rfl (Or.inl rfl) ho⟩
    | true => exact ⟨hs,.counted rfl rfl rfl ho⟩
  · cases hr

theorem follows_lock (hg : b.calls.get n = some (.waiting conn planned))
    (hl : b.lock n conn planned = some b') : Follows o b (b',[]) := by
  unfold lock at hl
  split at hl
  · next hw hr =>
    split at hl
    · cases hl
      exact h.elsewhere b.canceled (elsewhere_del (h.ne_writer hg rfl))
    · next heq =>
      cases hl
      obtain rfl := not_not.mp heq
      have hs := h.hold (n := n) (c := .locked b.endpointConn planned)
        (fun m hm => by rw [hw] at hm; cases hm) hr rfl (fun _ _ _ hc => by cases hc) b.losses
      refine ⟨hs,.quiet (Int.le_refl _) rfl (Or.inl rfl) ?_⟩
      rw [rebinding_of_writer_none hw]
      exact rebinding_setCall rfl _
  · cases hl

theorem follows_timed (hg : b.calls.get n = some (.locked conn planned)) :
    Follows o b (b.setCall n (.timed conn planned b.clock),[]) := by
  obtain ⟨hw,hr,rfl⟩ := h.holder hg rfl
  have hs := h.hold (n := n) (c := .timed b.endpointConn planned b.clock)
    (fun m hm => some.inj (hm.symm.trans hw)) hr rfl
    (fun _ _ _ hc => by cases hc; exact Int.le_refl _) b.losses
  rw [← hw] at hs
  refine ⟨hs,.quiet (Int.le_refl _) rfl (Or.inl rfl) ?_⟩
  rw [rebinding_of_writer hw hg]
  exact rebinding_setCall hw _

theorem follows_limit {now : Int} (hg : b.calls.get n = some (.timed conn planned now)) :
    Follows o b (b.limit o n conn planned now) := by
  obtain ⟨hw,hr,rfl⟩ := h.holder hg rfl
  have hn := h.timed n _ planned now hg
  have hcl : b.rebinding = none := rebinding_of_writer hw hg
  unfold limit
  dsimp only
  split
  · next hl =>
    obtain rfl : planned = false := by simpa using hl.1
    refine ⟨h.release hw rfl rfl ?_,.limited rfl rfl (Or.inr ⟨now,hn,rfl⟩) ?_⟩
    · intro m d hd
      rcases get_put_eq_some.mp hd with ⟨-,rfl⟩ | ho
      · exact Or.inr rfl
      · exact Or.inl ho
    · rw [hcl]
      exact rebinding_of_writer_none rfl
  · next hl =>
    have hs := h.hold (n := n) (c := .handling b.endpointConn planned)
      (fun m hm => some.inj (hm.symm.trans hw)) hr rfl (fun _ _ _ hc => by cases hc)
      (recentLosses b.losses now)
    rw [← hw] at hs
    refine ⟨hs,.started planned rfl rfl (Or.inr ⟨now,hn,rfl⟩) hcl ?_ ?_⟩
    · exact rebinding_setCall (b := { b with losses := recentLosses b.losses now }) hw _
    · rintro rfl
      exact Int.not_le.mp fun hle => hl ⟨rfl,hle⟩

theorem follows_replace (ok : Bool) (hg : b.calls.get n = some (.handling conn planned)) :
    Follows o b (b.replace n conn planned ok) := by
  obtain ⟨hw,hr,rfl⟩ := h.holder hg rfl
  have ho : b.rebinding = some planned := rebinding_of_writer hw hg
  have hdel : ∀ m d, (b.calls.del n).get m = some d →
      (m ≠ n ∧ b.calls.get m = some d) ∨ d.held = none :=
    fun m d hd => Or.inl (get_del_eq_some.mp hd)
  unfold replace
  split
  · refine ⟨h.release hw rfl rfl ?_,.abandoned planned rfl rfl rfl ho ?_⟩
    · intro m d hd
      rcases get_put_eq_some.mp hd with ⟨-,rfl⟩ | hot
      · exact Or.inr rfl
      · exact Or.inl hot
    · exact rebinding_of_writer_none rfl
  · split
    · exact ⟨h.release hw rfl rfl hdel,
        .abandoned planned rfl rfl rfl ho (rebinding_of_writer_none rfl)⟩
    · exact ⟨h.release hw rfl rfl hdel,
        .replaced planned rfl rfl rfl ho (rebinding_of_writer_none rfl)⟩

theorem follows_endpointGone (hg : b.calls.get n = some (.checking conn)) :
    Follows o b (b.endpointGone o n conn,[]) := by
  have hw := h.ne_writer hg rfl
  unfold endpointGone
  split
  · exact h.elsewhere true (elsewhere_del hw)
  · exact h.elsewhere b.canceled (elsewhere_put hw rfl)

theorem follows_replaceEndpoint
    (hc : b.replaceEndpoint o n planned = some b') : Follows o b (b',[]) := by
  unfold replaceEndpoint at hc
  split at hc
  · cases hc
    exact h.elsewhere b.canceled (elsewhere_refl b)
  · split at hc
    · cases hc
      exact h.elsewhere true (elsewhere_refl b)
    · exact follows_call h rfl hc

theorem follows_canRebind {now : Int} (hn : now ≤ b.clock) :
    Follows o b (b.canRebind o now,[]) := by
  unfold canRebind
  split
  · exact h.elsewhere b.canceled (elsewhere_refl b)
  · exact h.quiet rfl rfl (Int.le_refl _) (Or.inr ⟨now,hn,rfl⟩) h.routing_free (elsewhere_refl b)

theorem follows_advance (hg : b.calls.get n = some c) {ok : Bool}
    (hr : b.advance o n ok c = some r) : Follows o b r := by
  cases c with
  | checking conn =>
    cases hr
    exact follows_endpointGone h hg
  | loading planned =>
    cases hr
    exact h.elsewhere b.canceled (elsewhere_put (h.ne_writer hg rfl) rfl)
  | waiting conn planned => exact follows_quietly hr fun b' hl => follows_lock h hg hl
  | locked conn planned =>
    cases hr
    exact follows_timed h hg
  | timed conn planned now =>
    cases hr
    exact follows_limit h hg
  | handling conn planned =>
    cases hr
    exact follows_replace h ok hg
  | closing =>
    cases hr
    exact h.elsewhere true (elsewhere_del (h.ne_writer hg rfl))

theorem follows_step {a : Act} (hr : b.step o a = some r) : Follows o b r := by
  cases a with
  | tick t =>
    refine follows_quietly hr fun b' ht => ?_
    obtain ⟨hle,hset⟩ := ite_none_right_eq_some.mp ht
    cases hset
    exact h.quiet rfl rfl hle (Or.inl rfl) h.routing_free (elsewhere_refl b)
  | readClient =>
    cases hr
    exact h.quiet rfl rfl (Int.le_refl _) (Or.inl rfl) h.routing_free (elsewhere_refl b)
  | read conn =>
    refine follows_quietly hr fun b' hre => ?_
    obtain ⟨-,hset⟩ := ite_none_right_eq_some.mp hre
    cases hset
    exact h.quiet rfl rfl (Int.le_refl _) (Or.inl rfl) h.routing_free (elsewhere_refl b)
  | route => exact follows_quietly hr fun b' hro => follows_route h hro
  | settle outcome => exact follows_settle h hr
  | observe => exact follows_observe h hr
  | endpointGone n conn =>
    refine follows_quietly hr fun b' hg => ?_
    exact follows_call h rfl (ite_none_right_eq_some.mp hg).2
  | replaceEndpoint n planned =>
    exact follows_quietly hr fun b' hc => follows_replaceEndpoint h hc
  | advance n ok =>
    obtain ⟨c,hge,ha⟩ := bind_eq_some_iff.mp hr
    exact follows_advance h hge ha
  | canRebind now =>
    refine follows_quietly hr fun b' hca => ?_
    obtain ⟨hn,hset⟩ := ite_none_right_eq_some.mp hca
    cases hset
    exact follows_canRebind h hn
  | shutdown =>
    cases hr
    exact h.elsewhere true (elsewhere_refl b)

end

end SharedBridge

end SageGateway
