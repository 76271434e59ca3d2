import SageGateway.MethodBlock.Store

namespace SageGateway.MethodBlock

open List

inductive Act where
  | mark (service host method : GoString) (escalates : Bool)
  | clear (service : GoString)
  | sweep
  deriving DecidableEq

def Store.act (s : Store) (now : Int) : Act → Store
  | .mark service host method escalates => (s.mark now service host method escalates).1
  | .clear service => (s.clear now service).1
  | .sweep => s.sweep now

structure Marked where
  store : Store
  clock : Int
  -- History: every call with its time, newest first.
  log : List (Int × Act)

namespace Marked

def new (settings : MethodBlockSettings) (clock : Int) : Marked := ⟨.new settings,clock,[]⟩

def step (w : Marked) (c : Int × Act) : Option Marked :=
  if c.1 < w.clock then none else some ⟨w.store.act c.1 c.2,c.1,c :: w.log⟩

-- A client-attributed mark does not lengthen the life of supplier evidence that still counts.
def Unrefreshed (w : Marked) : Int × Act → Prop
  | (now,.mark service host method false) =>
      ((w.store.held service host method).all fun mk =>
        !mk.counts now || decide (now + w.store.lifetime false ≤ mk.expiry)) = true
  | _ => True

instance (w : Marked) : ∀ c, Decidable (Unrefreshed w c)
  | (_,.mark _ _ _ false) => inferInstanceAs (Decidable (_ = true))
  | (_,.mark _ _ _ true) => .isTrue trivial
  | (_,.clear _) => .isTrue trivial
  | (_,.sweep) => .isTrue trivial

variable {settings : MethodBlockSettings} {w w' : Marked}

structure Backed (settings : MethodBlockSettings) (w : Marked) : Prop where
  configured : w.store.settings = settings
  past : ∀ c ∈ w.log, c.1 ≤ w.clock
  supplied : ∀ service host method mk, w.store.held service host method = some mk →
    mk.escalates = true → ∃ t, (t,.mark service host method true) ∈ w.log ∧
      mk.expiry ≤ t + settings.ttl

theorem backed_new (settings : MethodBlockSettings) (clock : Int) :
    Backed settings (new settings clock) where
  configured := rfl
  past _ h := by cases h
  supplied _ _ _ _ h := by cases h

theorem Backed.marked (h : Backed settings w) {now : Int} {service host method : GoString}
    {escalates : Bool} (hok : Unrefreshed w (now,.mark service host method escalates))
    (hc : (escalates ||
      (w.store.held service host method).any (MethodMark.counts now)) = true) :
    ∃ t, (t,.mark service host method true) ∈ (now,.mark service host method escalates) :: w.log ∧
      now + w.store.lifetime escalates ≤ t + settings.ttl := by
  cases escalates with
  | true =>
    refine ⟨now,.head _,Int.le_of_eq ?_⟩
    rw [Store.lifetime,if_neg (fun han => Bool.noConfusion han.1),h.configured]
  | false =>
    rw [Bool.false_or,Option.any_eq_true] at hc
    obtain ⟨mk,hh,hmk⟩ := hc
    have hk : (!mk.counts now || decide (now + w.store.lifetime false ≤ mk.expiry)) = true := by
      have ha := hok
      rwa [Unrefreshed,hh] at ha
    rw [hmk,Bool.not_true,Bool.false_or,decide_eq_true_iff] at hk
    have hm : mk.escalates = true := (Bool.and_eq_true_iff.mp hmk).2
    obtain ⟨t,hme,he⟩ := h.supplied service host method mk hh hm
    exact ⟨t,.tail _ hme,hk.trans he⟩

theorem Backed.step {c : Int × Act} (h : Backed settings w) (hok : Unrefreshed w c)
    (hs : w.step c = some w') : Backed settings w' := by
  obtain ⟨hcl,rfl⟩ := Run.guard_neg hs
  obtain ⟨now,act⟩ := c
  have hle := Int.not_lt.mp hcl
  have hp : ∀ c ∈ (now,act) :: w.log, c.1 ≤ now := by
    intro c hc
    rcases mem_cons.mp hc with rfl | hold
    · exact Int.le_refl _
    · exact (h.past c hold).trans hle
  have hk : ∀ service host method mk, w.store.held service host method = some mk →
      mk.escalates = true → ∃ t, (t,.mark service host method true) ∈ (now,act) :: w.log ∧
        mk.expiry ≤ t + settings.ttl := by
    intro service host method mk hh hmk
    obtain ⟨t,hm,he⟩ := h.supplied service host method mk hh hmk
    exact ⟨t,.tail _ hm,he⟩
  cases act with
  | mark service host method escalates =>
    refine ⟨Store.settings_mark.trans h.configured,hp,?_⟩
    intro service' host' method' mk hh hmk
    rcases Store.held_mark hh with hold | ⟨⟨rfl,rfl,rfl⟩,rfl⟩
    · exact hk _ _ _ mk hold hmk
    · exact h.marked hok hmk
  | clear service =>
    refine ⟨h.configured,hp,fun service' host method mk hh hmk => ?_⟩
    exact hk service' host method mk (Store.held_clear now hh) hmk
  | sweep =>
    refine ⟨h.configured,hp,fun service host method mk hh hmk => ?_⟩
    exact hk service host method mk (Store.held_sweep hh) hmk

theorem host_block_needs_recent_suppliers {clock : Int}
    (h : Run.Reaches step Unrefreshed (new settings clock) w) {now : Int} (hnow : w.clock ≤ now)
    {service host method : GoString} {escalates : Bool}
    (hesc : (w.store.mark now service host method escalates).2 = true) :
    ∃ methods : List GoString, methods.Nodup ∧ settings.escalation ≤ methods.length ∧
      ∀ m ∈ methods, ∃ t, t ≤ now ∧ now < t + settings.ttl ∧
        (t,.mark service host m true) ∈ (now,.mark service host method escalates) :: w.log := by
  have hba : Backed settings w :=
    h.invariant _ (backed_new settings clock) fun _ _ _ hb hok hs => hb.step hok hs
  obtain ⟨rfl,methods,hn,hl,hme⟩ := Store.mark_escalated hesc
  rw [hba.configured] at hl
  refine ⟨methods,hn,hl,fun m hm => ?_⟩
  rcases hme m hm with rfl | ⟨mk,hh,hmk,hli⟩
  · refine ⟨now,Int.le_refl _,?_,.head _⟩
    have hp := Store.ttl_pos_of_mark hesc
    rw [hba.configured] at hp
    exact Int.lt_add_of_pos_right now hp
  · obtain ⟨t,hmm,he⟩ := hba.supplied service host m mk hh hmk
    exact ⟨t,(hba.past _ hmm).trans hnow,hli.trans_le he,
      .tail _ hmm⟩

def shippedSettings : MethodBlockSettings := ⟨5 * GoTime.minute,30 * GoTime.minute,3⟩

def markOf (method : String) (escalates : Bool) : Act :=
  .mark "eth".toList "rpc.alpha.net".toList method.toList escalates

-- The supplier's failure of eth_call is twenty minutes old when the third method is marked.
def clientRefresh : List (Int × Act) :=
  [(0,markOf "eth_call" true),(4 * GoTime.minute,markOf "eth_call" false),
    (20 * GoTime.minute,markOf "eth_getLogs" true)]

theorem client_mark_refreshes_supplier_evidence :
    ∃ w, Run.Reaches step (fun _ _ => True) (new shippedSettings 0) w ∧
      w.clock = 20 * GoTime.minute ∧
      (w.store.mark (20 * GoTime.minute) "eth".toList "rpc.alpha.net".toList "eth_getBlock".toList
        true).2 = true ∧
      ∀ methods : List GoString, methods.Nodup →
        (∀ m ∈ methods, ∃ t, 20 * GoTime.minute < t + shippedSettings.ttl ∧
          (t,.mark "eth".toList "rpc.alpha.net".toList m true) ∈
            (20 * GoTime.minute,markOf "eth_getBlock" true) :: w.log) →
        methods.length < shippedSettings.escalation := by
  refine Run.reaches_of (P := fun w => w.clock = 20 * GoTime.minute ∧
    (w.store.mark (20 * GoTime.minute) "eth".toList "rpc.alpha.net".toList "eth_getBlock".toList
      true).2 = true ∧ w.log = clientRefresh.reverse) clientRefresh (by decide +kernel) ?_
  rintro w - ⟨hc,he,hlo⟩
  refine ⟨hc,he,fun methods hn hr => ?_⟩
  have hs : methods ⊆ ["eth_getBlock".toList,"eth_getLogs".toList] := by
    intro m hm
    obtain ⟨t,hl,hme⟩ := hr m hm
    rw [hlo] at hme
    rcases mem_cons.mp hme with heq | hme
    · cases heq
      exact .head _
    rcases mem_cons.mp hme with heq | hme
    · cases heq
      exact .tail _ (.head _)
    rcases mem_cons.mp hme with heq | hme
    · cases heq
    · rcases mem_singleton.mp hme with heq
      cases heq
      exact absurd hl (by decide)
  have hle := (subperm_of_subset hn hs).length_le
  exact (Int.ofNat_le.mpr hle).trans_lt (by decide)

-- A client's mark on another method, and one after the supplier's has run out, change nothing.
def clientBeside : List (Int × Act) :=
  [(0,markOf "eth_call" true),(GoTime.minute,markOf "trace_block" false),
    (6 * GoTime.minute,markOf "eth_call" false),(7 * GoTime.minute,.sweep),
    (8 * GoTime.minute,markOf "eth_getLogs" true),(9 * GoTime.minute,markOf "eth_call" true)]

theorem third_supplier_mark_escalates :
    ∃ w, Run.Reaches step Unrefreshed (new shippedSettings 0) w ∧
      (w.store.mark (12 * GoTime.minute) "eth".toList "rpc.alpha.net".toList "eth_getBlock".toList
        true).2 = true ∧
      ∃ methods : List GoString, methods.Nodup ∧ shippedSettings.escalation ≤ methods.length ∧
        ∀ m ∈ methods, ∃ t, t ≤ 12 * GoTime.minute ∧ 12 * GoTime.minute < t + shippedSettings.ttl ∧
          (t,.mark "eth".toList "rpc.alpha.net".toList m true) ∈
            (12 * GoTime.minute,markOf "eth_getBlock" true) :: w.log := by
  obtain ⟨w,hr,hc,he⟩ : ∃ w, Run.Reaches step Unrefreshed (new shippedSettings 0) w ∧
      w.clock ≤ 12 * GoTime.minute ∧ (w.store.mark (12 * GoTime.minute) "eth".toList
        "rpc.alpha.net".toList "eth_getBlock".toList true).2 = true :=
    Run.reaches clientBeside (by decide +kernel)
  exact ⟨w,hr,he,host_block_needs_recent_suppliers hr hc he⟩

end Marked

end SageGateway.MethodBlock
