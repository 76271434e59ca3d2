import SageGateway.Lib.GoString
import SageGateway.Lib.OrderedLog
import SageGateway.Lib.Run
import Mathlib.Data.Prod.Lex

namespace SageGateway

structure StreamID where
  ms : Nat
  seq : Nat
  deriving DecidableEq

namespace StreamID

def lex (a : StreamID) : Nat ×ₗ Nat := toLex (a.ms,a.seq)

theorem lex_injective : Function.Injective lex := by
  intro a b h
  obtain ⟨hms,hs⟩ := Prod.mk.inj (toLex.injective h)
  cases a
  cases b
  cases hms
  cases hs
  rfl

instance : LinearOrder StreamID := LinearOrder.lift' lex lex_injective

theorem lt_iff {a b : StreamID} : a < b ↔ a.ms < b.ms ∨ a.ms = b.ms ∧ a.seq < b.seq :=
  Prod.Lex.toLex_lt_toLex

theorem le_of_ms_le {a b : StreamID} (hs : a.seq = 0) (hms : a.ms ≤ b.ms) : a ≤ b := by
  refine not_lt.mp fun hlt => ?_
  rcases lt_iff.mp hlt with h | ⟨-,h⟩
  · omega
  · omega

end StreamID

def streamIDBefore (a b : StreamID) : Bool :=
  decide (a.ms < b.ms) || (a.ms == b.ms && decide (a.seq < b.seq))

theorem streamIDBefore_iff {a b : StreamID} : streamIDBefore a b = true ↔ a < b := by
  rw [StreamID.lt_iff,streamIDBefore,Bool.or_eq_true,Bool.and_eq_true,beq_iff_eq,decide_eq_true_eq,
    decide_eq_true_eq]

def probeStreamMaxLen : Nat := 10000

def probeReadCount : Nat := 256

def unixMilli (t : Int) : Nat := (t / 1000000).toNat

theorem unixMilli_le {t u : Int} (h : t ≤ u) : unixMilli t ≤ unixMilli u :=
  Int.toNat_le_toNat (Int.ediv_le_ediv (by decide) h)

structure ProbeEntry (R : Type) where
  id : StreamID
  payload : Option (GoString × R)
  deriving DecidableEq

structure ProbeReader where
  instanceID : GoString
  replay : Int

def ProbeEntry.applies {R : Type} (C : ProbeReader) (e : ProbeEntry R) : Bool :=
  match e.payload with
  | none => false
  | some (producer,_) => decide (producer ≠ C.instanceID)

inductive ReplayFrom where
  | dollar
  | incl (id : StreamID)
  | excl (id : StreamID)
  deriving DecidableEq

def ReplayFrom.covers : ReplayFrom → StreamID → Bool
  | .dollar, _ => false
  | .incl a, id => decide (a ≤ id)
  | .excl a, id => decide (a < id)

def windowStart (C : ProbeReader) (now : Int) : StreamID :=
  ⟨unixMilli (if C.replay ≤ 0 then now else now - C.replay),0⟩

def replayID (C : ProbeReader) (now : Int) : ReplayFrom :=
  if C.replay ≤ 0 then .dollar else .incl (windowStart C now)

def rangeStart (C : ProbeReader) (now : Int) (resume : Option StreamID) : ReplayFrom :=
  match resume,replayID C now with
  | some r,.incl w => if streamIDBefore r w then .incl w else .excl r
  | some r,_ => .excl r
  | none,lastID => lastID

inductive ProbePhase (R : Type) where
  | stopped
  | starting (lastID : ReplayFrom)
  | applying (batch : List (ProbeEntry R)) (lastID : Option StreamID)
  | blocked (position : StreamID) (lastID : Option StreamID)

structure ProbeFeed (R : Type) where
  now : Int
  entries : List (ProbeEntry R)
  newest : StreamID
  resume : Option StreamID
  phase : ProbePhase R

inductive ProbeAct (R : Type) where
  | tick (d : Nat)
  | publish (e : ProbeEntry R) (trimmed : Nat)
  | run
  | xrange
  | apply
  | xread
  | deliver
  | timeout
  | fail
  deriving DecidableEq

namespace ProbeFeed

variable {R : Type}

def start (now : Int) : ProbeFeed R := ⟨now,[],⟨0,0⟩,none,.stopped⟩

def publish (s : ProbeFeed R) (e : ProbeEntry R) (trimmed : Nat) : Option (ProbeFeed R) :=
  if s.newest < e.id ∧ unixMilli s.now ≤ e.id.ms ∧
      (trimmed = 0 ∨ probeStreamMaxLen + trimmed ≤ s.entries.length + 1) then
    some { s with entries := (s.entries ++ [e]).drop trimmed, newest := e.id }
  else none

def run (C : ProbeReader) (s : ProbeFeed R) : Option (ProbeFeed R) :=
  match s.phase with
  | .stopped => some { s with phase := .starting (rangeStart C s.now s.resume) }
  | _ => none

def inRange (lastID : ReplayFrom) (s : ProbeFeed R) : List (ProbeEntry R) :=
  s.entries.filter fun e => lastID.covers e.id

def xrange (s : ProbeFeed R) : Option (ProbeFeed R) :=
  match s.phase with
  | .starting .dollar => none
  | .starting lastID => some { s with phase := .applying (s.inRange lastID) s.resume }
  | _ => none

def apply (s : ProbeFeed R) : Option (ProbeFeed R) :=
  match s.phase with
  | .applying (m :: rest) _ =>
      some { s with resume := some m.id, phase := .applying rest (some m.id) }
  | _ => none

def xread (s : ProbeFeed R) : Option (ProbeFeed R) :=
  match s.phase with
  | .applying [] lastID => some { s with phase := .blocked (lastID.getD s.newest) lastID }
  | _ => none

def arrived (s : ProbeFeed R) (position : StreamID) : List (ProbeEntry R) :=
  OrderedLog.after ProbeEntry.id position s.entries

def deliver (s : ProbeFeed R) : Option (ProbeFeed R) :=
  match s.phase with
  | .blocked position lastID =>
      match s.arrived position with
      | [] => none
      | m :: rest => some { s with phase := .applying ((m :: rest).take probeReadCount) lastID }
  | _ => none

def timeout (s : ProbeFeed R) : Option (ProbeFeed R) :=
  match s.phase with
  | .blocked position lastID =>
      match s.arrived position with
      | [] => some { s with phase := .applying [] lastID }
      | _ :: _ => none
  | _ => none

def fail (s : ProbeFeed R) : Option (ProbeFeed R) :=
  match s.phase with
  | .stopped => none
  | _ => some { s with phase := .stopped }

def step (C : ProbeReader) (s : ProbeFeed R) : ProbeAct R → Option (ProbeFeed R)
  | .tick d => some { s with now := s.now + d }
  | .publish e trimmed => s.publish e trimmed
  | .run => s.run C
  | .xrange => s.xrange
  | .apply => s.apply
  | .xread => s.xread
  | .deliver => s.deliver
  | .timeout => s.timeout
  | .fail => s.fail

def endOf (batch : List (ProbeEntry R)) (lastID : Option StreamID) : Option StreamID :=
  (batch.getLast?.map ProbeEntry.id).or lastID

def unread (s : ProbeFeed R) : List (ProbeEntry R) :=
  match s.phase with
  | .stopped => []
  | .starting lastID => s.inRange lastID
  | .applying batch lastID =>
      match endOf batch lastID with
      | none => batch
      | some last => batch ++ s.arrived last
  | .blocked position _ => s.arrived position

variable {C : ProbeReader} {s s' : ProbeFeed R}

theorem publish_eq {e : ProbeEntry R} {trimmed : Nat} (h : s.publish e trimmed = some s') :
    s.newest < e.id ∧ unixMilli s.now ≤ e.id.ms ∧
      s' = { s with entries := (s.entries ++ [e]).drop trimmed, newest := e.id } := by
  unfold publish at h
  split at h
  · rename_i hc
    cases h
    exact ⟨hc.1,hc.2.1,rfl⟩
  · cases h

theorem run_eq (h : s.run C = some s') : s.phase = .stopped ∧
    s' = { s with phase := .starting (rangeStart C s.now s.resume) } := by
  unfold run at h
  split at h
  · cases h
    exact ⟨‹_›,rfl⟩
  · cases h

theorem xrange_eq (h : s.xrange = some s') : ∃ lastID, lastID ≠ .dollar ∧
    s.phase = .starting lastID ∧
    s' = { s with phase := .applying (s.inRange lastID) s.resume } := by
  unfold xrange at h
  split at h
  · cases h
  · rename_i lastID hne hp
    cases h
    exact ⟨lastID,hne,hp,rfl⟩
  · cases h

theorem apply_eq (h : s.apply = some s') : ∃ m rest lastID, s.phase = .applying (m :: rest) lastID ∧
    s' = { s with resume := some m.id, phase := .applying rest (some m.id) } := by
  unfold apply at h
  split at h
  · cases h
    exact ⟨_,_,_,‹_›,rfl⟩
  · cases h

theorem xread_eq (h : s.xread = some s') : ∃ lastID, s.phase = .applying [] lastID ∧
    s' = { s with phase := .blocked (lastID.getD s.newest) lastID } := by
  unfold xread at h
  split at h
  · cases h
    exact ⟨_,‹_›,rfl⟩
  · cases h

theorem deliver_eq (h : s.deliver = some s') : ∃ position lastID,
    s.phase = .blocked position lastID ∧ s.arrived position ≠ [] ∧
    s' = { s with phase := .applying ((s.arrived position).take probeReadCount) lastID } := by
  unfold deliver at h
  split at h
  · rename_i position lastID hp
    split at h
    · cases h
    · rename_i m rest ha
      cases h
      exact ⟨position,lastID,hp,ha ▸ List.cons_ne_nil m rest,by rw [ha]⟩
  · cases h

theorem timeout_eq (h : s.timeout = some s') : ∃ position lastID,
    s.phase = .blocked position lastID ∧ s.arrived position = [] ∧
    s' = { s with phase := .applying [] lastID } := by
  unfold timeout at h
  split at h
  · rename_i position lastID hp
    split at h
    · rename_i ha
      cases h
      exact ⟨position,lastID,hp,ha,rfl⟩
    · cases h
  · cases h

theorem fail_eq (h : s.fail = some s') : s' = { s with phase := .stopped } := by
  unfold fail at h
  split at h
  · cases h
  · cases h
    rfl

end ProbeFeed

structure LoggedFeed (R : Type) where
  feed : ProbeFeed R
  window : StreamID
  applied : List (ProbeEntry R × StreamID)
  runApplied : List (ProbeEntry R)
  handled : Nat
  published : List (ProbeEntry R × Nat)

namespace LoggedFeed

variable {R : Type}

def start (now : Int) : LoggedFeed R := ⟨.start now,⟨0,0⟩,[],[],0,[]⟩

def noteRun (C : ProbeReader) (s : LoggedFeed R) (feed : ProbeFeed R) : LoggedFeed R :=
  { s with feed := feed, window := windowStart C s.feed.now, runApplied := [], handled := 0,
           published := [] }

def noteApply (C : ProbeReader) (s : LoggedFeed R) (feed : ProbeFeed R) : LoggedFeed R :=
  match s.feed.phase with
  | .applying (m :: _) _ =>
      if m.applies C then
        { s with feed := feed, applied := s.applied ++ [(m,s.window)],
                 runApplied := s.runApplied ++ [m], handled := s.handled + 1 }
      else { s with feed := feed, handled := s.handled + 1 }
  | _ => { s with feed := feed }

def notePublish (s : LoggedFeed R) (e : ProbeEntry R) (feed : ProbeFeed R) : LoggedFeed R :=
  { s with feed := feed,
           published := s.published ++ [(e,s.handled + s.feed.unread.length + 1)] }

def note (C : ProbeReader) (s : LoggedFeed R) (feed : ProbeFeed R) : ProbeAct R → LoggedFeed R
  | .run => s.noteRun C feed
  | .apply => s.noteApply C feed
  | .publish e _ => s.notePublish e feed
  | _ => { s with feed := feed }

def step (C : ProbeReader) (s : LoggedFeed R) (a : ProbeAct R) : Option (LoggedFeed R) :=
  (s.feed.step C a).map fun feed => s.note C feed a

theorem noteApply_eq {C : ProbeReader} {s : LoggedFeed R} {m : ProbeEntry R}
    {rest : List (ProbeEntry R)} {lastID : Option StreamID} (feed : ProbeFeed R)
    (h : s.feed.phase = .applying (m :: rest) lastID) :
    s.noteApply C feed = if m.applies C then
        { s with feed := feed, applied := s.applied ++ [(m,s.window)],
                 runApplied := s.runApplied ++ [m], handled := s.handled + 1 }
      else { s with feed := feed, handled := s.handled + 1 } := by
  rw [noteApply,h]

end LoggedFeed

end SageGateway
