import SageGateway.Override.TuningStore
import SageGateway.Relay.Quorum
import Mathlib.Tactic.Ring

namespace SageGateway.Tuning

open GoString

inductive Kind where
  | int | duration | float | string

structure Knob where
  name : String
  kind : Kind
  min : Int
  max : Int
  unit : String
  require : List String

def share (name : String) : Knob := ⟨name,.float,0,1,"share",[]⟩

def knobs : List Knob :=
  [share "websocket.duplicate_major_share",
    share "websocket.duplicate_share_floor",
    share "websocket.duplicate_share_full",
    share "reputation.throttle_share_floor",
    share "reputation.throttle_share_full",
    share "reputation.class_share_floor",
    share "reputation.class_share_full",
    ⟨"autodrain.peer_ratio",.float,0,100,"ratio",[]⟩,
    ⟨"websocket.duplicate_window",.duration,0,300000,"ms",[]⟩,
    ⟨"websocket.max_connections_per_client",.int,0,1000000,"connections",[]⟩,
    ⟨"websocket.duplicate_budget",.int,64,1000000,"notifications",[]⟩,
    share "websocket.duplicate_max_share",
    ⟨"websocket.duplicate_min_notifications",.int,1,1000000,"notifications",[]⟩,
    ⟨"batch.max_payloads",.int,1,100000,"payloads",[]⟩,
    ⟨"websocket.deny_message",.string,1,500,"characters",[]⟩,
    ⟨"batch.reject_message",.string,1,500,"characters",["\x7bn\x7d","\x7bmax\x7d"]⟩,
    ⟨"batch.max_concurrency",.int,1,1024,"payloads",[]⟩,
    ⟨"retry.max_retries",.int,0,10,"attempts",[]⟩,
    ⟨"retry.max_latency",.duration,0,120000,"ms",[]⟩,
    ⟨"retry.hedge_delay",.duration,0,60000,"ms",[]⟩,
    ⟨"timeout.relay_timeout",.duration,100,300000,"ms",[]⟩,
    ⟨"relay.max_response_mb",.int,1,16384,"MiB",[]⟩,
    ⟨"health_checks.interval",.duration,1000,3600000,"ms",[]⟩,
    ⟨"health_checks.max_workers",.int,1,512,"workers",[]⟩,
    ⟨"health_checks.peer_max_age",.duration,0,3600000,"ms",[]⟩,
    ⟨"method_blocks.ttl",.duration,0,86400000,"ms",[]⟩,
    ⟨"method_blocks.client_ttl",.duration,0,86400000,"ms",[]⟩,
    ⟨"method_blocks.escalation_threshold",.int,0,100,"methods",[]⟩,
    ⟨"observation_pipeline.sample_rate",.float,0,1,"ratio",[]⟩,
    ⟨"qos.sync_allowance",.int,0,10000000,"blocks",[]⟩]

def lookup (name : GoString) : Option Knob := knobs.find? fun k => k.name.toList = name

inductive Float64 where
  | nan
  | inf (neg : Bool)
  | num (q : Rat)
  deriving DecidableEq

def Float64.lt (b : Int) : Float64 → Bool
  | nan => false
  | inf neg => neg
  | num q => decide (q < b)

def Float64.gt (b : Int) : Float64 → Bool
  | nan => false
  | inf neg => !neg
  | num q => decide (b < q)

structure Value where
  int : Int
  dur : Int
  float : Float64
  raw : GoString
  deriving DecidableEq

-- finite is the float64 nearest to the number a text spells, none where it spells none or none is
-- near; scaled is uint64(float64(f) * (float64(unit) / scale)), which is exact where the numbers
-- are whole and far below 2^53.
structure Strconv where
  finite : GoString → Option Rat
  scaled : Nat → Nat → Nat → Nat
  scaled_whole : ∀ f unit scale, unit ≤ 3600000000000 → scale ∣ unit → f < scale →
    scaled f unit scale = f * (unit / scale)

def sign : GoString → Bool × GoString
  | '-' :: s => (true,s)
  | '+' :: s => (false,s)
  | s => (false,s)

def parseFloat (S : Strconv) (s : GoString) : Option Float64 :=
  let low := s.map Char.toLower
  if low = "nan".toList then some .nan
  else if (sign low).2 ∈ ["inf".toList,"infinity".toList] then some (.inf (sign low).1)
  else (S.finite s).map .num

def digit (x : Nat) (c : Char) : Nat := x * 10 + (c.toNat - 48)

def leadingInt : Nat → GoString → Option Nat
  | x,[] => some x
  | x,c :: s =>
      if 2 ^ 63 / 10 < x ∨ 2 ^ 63 < digit x c then none else leadingInt (digit x c) s

def leadingFraction : Nat → Nat → GoString → Nat × Nat
  | x,scale,[] => (x,scale)
  | x,scale,c :: s =>
      if (2 ^ 63 - 1) / 10 < x ∨ 2 ^ 63 < digit x c then (x,scale)
      else leadingFraction (digit x c) (scale * 10) s

structure Term where
  whole : GoString
  frac : GoString
  unit : Nat

def unitMap (u : GoString) : Option Nat :=
  ([("ns",1),("us",1000),("µs",1000),("μs",1000),("ms",1000000),("s",1000000000),
    ("m",60000000000),("h",3600000000000)].find? fun p => p.1.toList = u).map Prod.snd

def terms : Nat → GoString → Option (List Term)
  | _,[] => some []
  | 0,_ :: _ => none
  | n + 1,c :: s =>
      let whole := (c :: s).takeWhile Char.isDigit
      let rest := (c :: s).dropWhile Char.isDigit
      let frac := if rest.head? = some '.' then rest.tail.takeWhile Char.isDigit else []
      let rest := if rest.head? = some '.' then rest.tail.dropWhile Char.isDigit else rest
      let letter c := c != '.' && !c.isDigit
      if whole = [] ∧ frac = [] then none
      else
        (unitMap (rest.takeWhile letter)).bind fun unit =>
          (terms n (rest.dropWhile letter)).map fun ts => ⟨whole,frac,unit⟩ :: ts

def Term.fraction (S : Strconv) (t : Term) : Nat :=
  let (f,scale) := leadingFraction 0 1 t.frac
  if 0 < f then S.scaled f t.unit scale else 0

def Term.add (S : Strconv) (d : Nat) (t : Term) : Option Nat :=
  (leadingInt 0 t.whole).bind fun v =>
    let w := (v * t.unit + t.fraction S) % 2 ^ 64
    if 2 ^ 63 / t.unit < v ∨ 2 ^ 63 < w ∨ 2 ^ 63 < (d + w) % 2 ^ 64 then none
    else some ((d + w) % 2 ^ 64)

-- time.ParseDuration, with the terms read before they are added up.
def parseDuration (S : Strconv) (s : GoString) : Option Int :=
  let (neg,s) := sign s
  if s = ['0'] then some 0
  else if s = [] then none
  else
    (terms s.length s).bind fun ts => (ts.foldlM (Term.add S) 0).bind fun d =>
      if neg then some (-d) else if 2 ^ 63 - 1 < d then none else some d

inductive ParseError where
  | unknownKnob (name : GoString)
  | valueRequired (name : GoString)
  | notWholeNumber (name raw : GoString)
  | notDuration (name raw : GoString)
  | notNumber (name raw : GoString)
  | mustContain (name raw want : GoString)
  | outside (name raw : GoString) (min max : Int) (unit : String)
  deriving DecidableEq

def checkBounds (k : Knob) (got : Float64) (raw : GoString) : Except ParseError Unit :=
  if got.lt k.min || got.gt k.max then
    .error (.outside k.name.toList raw k.min k.max k.unit)
  else .ok ()

-- A conversion to float64 is exact up to 2^53, and beyond it stays beyond every bound.
def parse (S : Strconv) (name raw : GoString) : Except ParseError Value :=
  match lookup name with
  | none => .error (.unknownKnob name)
  | some k =>
      let raw := trimSpace raw
      if raw = [] then .error (.valueRequired name)
      else
        match k.kind with
        | .int =>
            match atoi raw with
            | none => .error (.notWholeNumber name raw)
            | some n => (checkBounds k (.num n) raw).map fun _ => ⟨n,0,.num 0,raw⟩
        | .duration =>
            match parseDuration S raw with
            | none => .error (.notDuration name raw)
            | some d =>
                (checkBounds k (.num (d.tdiv 1000000)) raw).map fun _ => ⟨0,d,.num 0,raw⟩
        | .float =>
            match parseFloat S raw with
            | none => .error (.notNumber name raw)
            | some f => (checkBounds k f raw).map fun _ => ⟨0,0,f,raw⟩
        | .string =>
            match checkBounds k (.num (raw.length : Int)) raw with
            | .error e => .error e
            | .ok _ =>
                match k.require.find? fun want => (cutText want.toList raw).isNone with
                | some want => .error (.mustContain name raw want.toList)
                | none => .ok ⟨0,0,.num 0,raw⟩

theorem lookup_spec {name : GoString} {k : Knob} (h : lookup name = some k) :
    k ∈ knobs ∧ k.name.toList = name :=
  ⟨List.mem_of_find?_eq_some h,by simpa using List.find?_some h⟩

def knobParser (S : Strconv) : KnobParser where
  parse name raw := (parse S name raw).toOption.map fun v => ⟨v.int,v.dur,v.raw⟩
  slash_free name raw v h := by
    cases hl : lookup name with
    | none => simp [parse,hl,Except.toOption] at h
    | some k =>
      have hn : ∀ k ∈ knobs, '/' ∉ k.name.toList := by decide +kernel
      obtain ⟨hk,rfl⟩ := lookup_spec hl
      exact hn k hk

def digits (s : GoString) : Nat := s.foldl digit 0

def Term.Exact (S : Strconv) (t : Term) : Prop :=
  t.fraction S * 10 ^ t.frac.length = digits t.frac * t.unit

def Knob.InRange (k : Knob) (z : Int) : Prop := k.min * 1000000 ≤ z ∧ z ≤ k.max * 1000000

variable {S : Strconv} {t : Term} {ts : List Term} {d n v x : Nat} {k : Knob} {raw : GoString}

theorem bounded {got : Float64} {f : Unit → Value} {v : Value}
    (h : (checkBounds k got raw).map f = .ok v) : checkBounds k got raw = .ok () ∧ v = f () := by
  cases hb : checkBounds k got raw with
  | error e => simp [hb,Except.map] at h
  | ok u =>
    simp only [hb] at h
    cases h
    exact ⟨rfl,rfl⟩

end SageGateway.Tuning
