import Mathlib.Data.List.Dedup
import Mathlib.Data.List.Perm.Subperm
import SageGateway.Domain
import SageGateway.Lib.GoTime
import SageGateway.Lib.Run

namespace SageGateway.ClientLedger

open List

def wsLedgerWindow : Int := GoTime.hour

def wsLedgerMaxClients : Nat := 4096

def wsLedgerMaxSuppliers : Nat := 32

def wsQuickCloseTenure : Int := 30 * GoTime.second

structure SupplierKey where
  service : GoString
  operator : GoString
  owner : GoString
  deriving DecidableEq

inductive Event where
  | opened
  | tenure (key : SupplierKey) (d : Int) (frames : Int) (clientQuit : Bool)
  deriving DecidableEq

def Event.quick : Event → Bool
  | .opened => false
  | .tenure _ d _ clientQuit => clientQuit && d < wsQuickCloseTenure

def Event.key : Event → Option SupplierKey
  | .opened => none
  | .tenure key _ _ _ => some key

-- A call that names a client, numbered, with the start of the window it fell into.
structure Call where
  no : Nat
  time : Int
  ip : GoString
  event : Event
  window : Int
  deriving DecidableEq

-- A call in the counters of its client; served tells that those of its supplier moved as well.
structure Counted extends Call where
  served : Bool
  deriving DecidableEq

def Counted.supplier (c : Counted) : Option SupplierKey := if c.served then c.event.key else none

abbrev Bucket := List Counted

def clients (b : Bucket) : List GoString := (b.map fun c => c.ip).dedup

def suppliers (b : Bucket) (ip : GoString) : List SupplierKey :=
  ((b.filter (·.ip = ip)).filterMap Counted.supplier).dedup

-- clock is the time of the last call, calls the times at which the window was looked at; log holds
-- every call that names a client, counted or not.
structure Ledger where
  clock : Int
  started : Int
  since : Int
  cur : Bucket
  prev : Bucket
  dropped : Nat
  calls : List Int
  log : List Call

def Ledger.rotate (l : Ledger) (now : Int) : Ledger :=
  let l := { l with clock := now,calls := l.calls ++ [now] }
  if wsLedgerWindow ≤ now - l.started then
    { l with prev := l.cur,cur := [],since := l.started,started := now,dropped := 0 }
  else l

def Ledger.put (l : Ledger) (c : Counted) : Ledger := { l with cur := l.cur ++ [c] }

def Ledger.enter (l : Ledger) (c : Call) : Ledger :=
  if c.ip ∉ clients l.cur ∧ wsLedgerMaxClients ≤ (clients l.cur).length then
    { l with dropped := l.dropped + 1 }
  else
    match c.event with
    | .opened => l.put ⟨c,false⟩
    | .tenure key _ _ _ =>
        if key ∈ suppliers l.cur c.ip ∨ (suppliers l.cur c.ip).length < wsLedgerMaxSuppliers then
          l.put ⟨c,true⟩
        else if c.event.quick then l.put ⟨c,false⟩
        else l

def Ledger.record (l : Ledger) (now : Int) (ip : GoString) (event : Event) : Ledger :=
  if ip = [] then { l with clock := now }
  else
    let l := l.rotate now
    let c : Call := ⟨l.log.length,now,ip,event,l.started⟩
    { l with log := l.log ++ [c] }.enter c

def Ledger.counted (l : Ledger) : List Counted := l.prev ++ l.cur

structure Report where
  connections : Nat
  quickCloses : Nat
  tenures : SupplierKey → Nat
  frames : SupplierKey → Int

def Ledger.report (l : Ledger) (ip : GoString) : Report :=
  let own := l.counted.filter (·.ip = ip)
  { connections := own.countP (·.event = .opened)
    quickCloses := own.countP (·.event.quick)
    tenures := fun key => own.countP (·.supplier = some key)
    frames := fun key => ((own.filter (·.supplier = some key)).map fun c =>
      match c.event with
      | .opened => 0
      | .tenure _ _ frames _ => frames).foldl (· + ·) 0 }

inductive Act where
  | record (now : Int) (ip : GoString) (event : Event)
  | snapshot (now : Int)

def Ledger.step (l : Ledger) : Act → Option Ledger
  | .record now ip event => if l.clock ≤ now then some (l.record now ip event) else none
  | .snapshot now => if l.clock ≤ now then some (l.rotate now) else none

def ClientCapped (b : Bucket) (c : Call) : Prop :=
  c.ip ∉ clients b ∧ wsLedgerMaxClients ≤ (clients b).length

def SupplierCapped (b : Bucket) (c : Call) : Prop :=
  c.event.quick = false ∧ ∃ key, c.event.key = some key ∧ key ∉ suppliers b c.ip ∧
    wsLedgerMaxSuppliers ≤ (suppliers b c.ip).length

def Capped (b : Bucket) (c : Call) : Prop := ClientCapped b c ∨ SupplierCapped b c

def Counts (b : Bucket) (c : Call) : Prop := ∃ k ∈ b, k.toCall = c

section Caps

variable {b : Bucket} {c : Call} {k : Counted}

theorem mem_clients {ip : GoString} : ip ∈ clients b ↔ ∃ k ∈ b, k.ip = ip := by
  simp [clients,mem_dedup]

theorem mem_suppliers {ip : GoString} {key : SupplierKey} :
    key ∈ suppliers b ip ↔ ∃ k ∈ b, k.ip = ip ∧ k.supplier = some key := by
  simp [suppliers,mem_dedup,and_assoc]

structure Admits (b : Bucket) (k : Counted) : Prop where
  client : k.ip ∈ clients b ∨ (clients b).length < wsLedgerMaxClients
  supplier : ∀ key, k.supplier = some key →
    key ∈ suppliers b k.ip ∨ (suppliers b k.ip).length < wsLedgerMaxSuppliers
  served : k.served = true ∨ k.event.key = none ∨ k.event.quick = true

theorem length_le_of_nodup {α : Type} {l₁ l₂ : List α} (hn : l₁.Nodup) (h : l₁ ⊆ l₂) :
    l₁.length ≤ l₂.length := (hn.subperm h).length_le

theorem Capped.put (h : Capped b c) (hk : Admits b k) : Capped (b ++ [k]) c := by
  rcases h with ⟨hn,hl⟩ | ⟨hq,key,hkey,hn,hl⟩
  · refine .inl ⟨fun hm => hn ?_,hl.trans (length_le_of_nodup (nodup_dedup _) fun ip hi => ?_)⟩
    · obtain ⟨k',hm,hip⟩ := mem_clients.mp hm
      rcases mem_append.mp hm with hm | hm
      · exact mem_clients.mpr ⟨k',hm,hip⟩
      · cases mem_singleton.mp hm
        exact hip ▸ hk.client.resolve_right (by omega)
    · obtain ⟨k',hm,hip⟩ := mem_clients.mp hi
      exact mem_clients.mpr ⟨k',mem_append_left _ hm,hip⟩
  · refine .inr ⟨hq,key,hkey,fun hm => hn ?_,
      hl.trans (length_le_of_nodup (nodup_dedup _) fun key hi => ?_)⟩
    · obtain ⟨k',hm,hip,hs⟩ := mem_suppliers.mp hm
      rcases mem_append.mp hm with hm | hm
      · exact mem_suppliers.mpr ⟨k',hm,hip,hs⟩
      · cases mem_singleton.mp hm
        have ha := hk.supplier key hs
        rw [hip] at ha
        exact ha.resolve_right (by omega)
    · obtain ⟨k',hm,hip,hs⟩ := mem_suppliers.mp hi
      exact mem_suppliers.mpr ⟨k',mem_append_left _ hm,hip,hs⟩

end Caps

variable {l : Ledger} {now : Int}

theorem enter_cases (l : Ledger) (c : Call) :
    (∃ k : Counted, k.toCall = c ∧ Admits l.cur k ∧ l.enter c = l.put k) ∨
    Capped l.cur c ∧ ∃ n, l.enter c = { l with dropped := n } := by
  unfold Ledger.enter
  split
  · next hc => exact .inr ⟨.inl hc,_,rfl⟩
  next hc =>
  have hcl : c.ip ∈ clients l.cur ∨ (clients l.cur).length < wsLedgerMaxClients := by
    rw [not_and_or,not_not,not_le] at hc
    exact hc
  split
  · next he => exact .inl ⟨⟨c,false⟩,rfl,⟨hcl,nofun,.inr (.inl (by rw [he]; rfl))⟩,rfl⟩
  · next key d frames quit he =>
    have hk : c.event.key = some key := by rw [he]; rfl
    split_ifs with hs hq
    · refine .inl ⟨⟨c,true⟩,rfl,⟨hcl,fun key' hk' => ?_,.inl rfl⟩,rfl⟩
      cases hk.symm.trans hk'
      exact hs
    · exact .inl ⟨⟨c,false⟩,rfl,⟨hcl,nofun,.inr (.inr hq)⟩,rfl⟩
    · rw [not_or,not_lt] at hs
      exact .inr ⟨.inr ⟨Bool.eq_false_iff.mpr hq,key,hk,hs⟩,l.dropped,rfl⟩

structure Holds (b : Bucket) (window : Int) : Prop where
  window : ∀ k ∈ b, k.window = window
  served : ∀ k ∈ b, k.served = true ∨ k.event.key = none ∨ k.event.quick = true

structure Kept (l : Ledger) : Prop where
  clock : l.started ≤ l.clock
  since : l.since = l.started ∧ l.prev = [] ∨
    l.started ∈ l.calls ∧ l.since + wsLedgerWindow ≤ l.started
  first : ∀ u ∈ l.calls, l.since + wsLedgerWindow ≤ u → l.started ≤ u
  recent : ∀ u ∈ l.calls, u < l.started + wsLedgerWindow
  window : ∀ c ∈ l.log, c.window ≤ c.time ∧ c.time < c.window + wsLedgerWindow
  counted : (l.counted.map Counted.toCall).Sublist l.log
  cur : Holds l.cur l.started
  prev : Holds l.prev l.since
  fate : ∀ c ∈ l.log, c.window = l.started ∧ (Counts l.cur c ∨ Capped l.cur c) ∨
    c.window ≠ l.started ∧ c.window = l.since ∧ (Counts l.prev c ∨ Capped l.prev c) ∨
    ∃ u ∈ l.calls, c.window + wsLedgerWindow ≤ u ∧ u + wsLedgerWindow ≤ l.started

theorem window_pos : 0 < wsLedgerWindow := by decide

theorem Kept.rotate (h : Kept l) (hn : l.clock ≤ now) :
    Kept (l.rotate now) ∧ (l.rotate now).started ≤ now ∧
      now < (l.rotate now).started + wsLedgerWindow ∧
      (l.rotate now).calls = l.calls ++ [now] ∧ (l.rotate now).log = l.log := by
  have hw := window_pos
  have hc := Int.le_trans h.clock hn
  unfold Ledger.rotate
  dsimp only
  split_ifs with hfull
  · refine ⟨⟨Int.le_refl _,.inr ⟨by simp,by dsimp only; omega⟩,?_,?_,h.window,?_,⟨nofun,nofun⟩,
      h.cur,fun c hm => .inr ?_⟩,Int.le_refl _,Int.lt_add_of_pos_right _ hw,rfl,rfl⟩
    · refine forall_mem_append.mpr ⟨fun u hu hs => ?_,by simp⟩
      have := h.recent u hu
      dsimp only at hs ⊢
      omega
    · refine forall_mem_append.mpr ⟨fun u hu => ?_,
        forall_mem_singleton.mpr (Int.lt_add_of_pos_right _ hw)⟩
      have := h.recent u hu
      dsimp only
      omega
    · refine Sublist.trans ?_ h.counted
      simp [Ledger.counted]
    · rcases h.fate c hm with ⟨hcw,hf⟩ | ⟨hne,hcs,-⟩ | ⟨u,hu,hcu,hus⟩
      · exact .inl ⟨by dsimp only; omega,hcw,hf⟩
      · obtain ⟨hs,-⟩ | ⟨hs,hd⟩ := h.since
        · exact absurd (hcs.trans hs) hne
        · exact .inr ⟨l.started,mem_append_left _ hs,hcs ▸ hd,by dsimp only; omega⟩
      · exact .inr ⟨u,mem_append_left _ hu,hcu,by dsimp only; omega⟩
  · refine ⟨{ h with clock := hc,since := ?_,first := ?_,recent := ?_,fate := ?_ },hc,
      by dsimp only; omega,rfl,rfl⟩
    · exact h.since.imp_right fun hs => ⟨mem_append_left _ hs.1,hs.2⟩
    · exact forall_mem_append.mpr ⟨h.first,by simpa using fun _ => hc⟩
    · refine forall_mem_append.mpr ⟨h.recent,?_⟩
      simp only [mem_singleton,forall_eq]
      omega
    · intro c hm
      refine (h.fate c hm).imp_right (Or.imp_right ?_)
      rintro ⟨u,hu,hcu⟩
      exact ⟨u,mem_append_left _ hu,hcu⟩

theorem Kept.enter (h : Kept l) {c : Call} (hc : c.window = l.started)
    (ht : c.window ≤ c.time ∧ c.time < c.window + wsLedgerWindow) :
    Kept ({ l with log := l.log ++ [c] }.enter c) := by
  have hlog : ∀ d ∈ l.log ++ [c], d.window ≤ d.time ∧ d.time < d.window + wsLedgerWindow :=
    forall_mem_append.mpr ⟨h.window,by simpa using ht⟩
  rcases enter_cases { l with log := l.log ++ [c] } c with ⟨k,hk,ha,he⟩ | ⟨hcap,n,he⟩ <;> rw [he]
  · subst hk
    refine { h with window := hlog,counted := ?_,cur := ⟨?_,?_⟩,fate := ?_ }
    · have := h.counted.append (Sublist.refl [k.toCall])
      simpa [Ledger.put,Ledger.counted] using this
    · exact forall_mem_append.mpr ⟨h.cur.window,by simpa [Ledger.put] using hc⟩
    · exact forall_mem_append.mpr ⟨h.cur.served,by simpa using ha.served⟩
    · refine forall_mem_append.mpr ⟨fun d hd => (h.fate d hd).imp_left fun hf => ⟨hf.1,?_⟩,?_⟩
      · rcases hf.2 with ⟨k',hm,hk'⟩ | hcap
        · exact .inl ⟨k',mem_append_left _ hm,hk'⟩
        · exact .inr (hcap.put ha)
      · simpa using .inl ⟨hc,.inl ⟨k,by simp [Ledger.put],rfl⟩⟩
  · refine { h with window := hlog,counted := ?_,fate := ?_ }
    · exact h.counted.trans (sublist_append_left _ _)
    · exact forall_mem_append.mpr ⟨h.fate,by simpa using .inl ⟨hc,.inr hcap⟩⟩

theorem Kept.record (h : Kept l) (hn : l.clock ≤ now) (ip : GoString) (event : Event) :
    Kept (l.record now ip event) := by
  obtain ⟨hk,hc,hw,-⟩ := h.rotate hn
  unfold Ledger.record
  split
  · exact { h with clock := Int.le_trans h.clock hn }
  · exact hk.enter rfl ⟨hc,hw⟩

section Overfull

variable {b : Bucket} {c : Call} {log : List Call} (hc : c ∈ log)
  (hb : ∀ k ∈ b, k.toCall ∈ log ∧ k.window = c.window)

include hc hb

end Overfull

end SageGateway.ClientLedger
