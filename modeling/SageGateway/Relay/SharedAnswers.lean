import SageGateway.Lib.GoMap
import SageGateway.Lib.Run
import SageGateway.Relay.RequestKey

namespace SageGateway.RequestKey

open Json

-- What the response cache and the flight groups hold, by whose relay each answer is. An entry may
-- be evicted or expire at any moment.
structure Front (Digest : Type) [DecidableEq Digest] where
  entries : GoMap Digest Request
  flights : GoMap (Bytes × Digest) Request
  -- History: who was given an answer, and whose relay it came from.
  served : List (Request × Request)

inductive FrontAct (Digest : Type) where
  | hit (r : Request)
  | lead (r : Request)
  | share (r : Request)
  | finish (r : Request)
  | store (r origin : Request)
  | drop (key : Digest)

namespace Front

variable {Digest : Type} [DecidableEq Digest] (sha256 : Bytes → Digest)

def new : Front Digest := ⟨∅,∅,[]⟩

def flightOf (r : Request) : Bytes × Digest := (r.serviceID.bytes,r.key sha256)

def step (w : Front Digest) : FrontAct Digest → Option (Front Digest)
  | .hit r =>
      (w.entries.get (r.key sha256)).map fun origin => { w with served := (r,origin) :: w.served }
  | .lead r =>
      if w.flights.has (flightOf sha256 r) then none
      else some { w with flights := w.flights.put (flightOf sha256 r) r }
  | .share r =>
      (w.flights.get (flightOf sha256 r)).map fun leader =>
        { w with served := (r,leader) :: w.served }
  | .finish r => some { w with flights := w.flights.del (flightOf sha256 r) }
  | .store r origin =>
      if origin = r ∨ (r,origin) ∈ w.served then
        some { w with entries := w.entries.put (r.key sha256) origin }
      else none
  | .drop key => some { w with entries := w.entries.del key }

def Admits (_ : Front Digest) : FrontAct Digest → Prop
  | .hit r | .lead r | .share r | .finish r | .store r _ => r.payload.Accepted
  | .drop _ => True

instance (w : Front Digest) : ∀ a, Decidable (Admits w a)
  | .hit r | .lead r | .share r | .finish r | .store r _ =>
      inferInstanceAs (Decidable r.payload.Accepted)
  | .drop _ => .isTrue trivial

variable {sha256} {w w' : Front Digest} {a b : Request}

variable (sha256) in
structure Keyed (w : Front Digest) : Prop where
  entries : ∀ {k o}, w.entries.get k = some o → o.key sha256 = k ∧ o.payload.Accepted
  flights : ∀ {k o}, w.flights.get k = some o → o.key sha256 = k.2 ∧ o.payload.Accepted
  served : ∀ p ∈ w.served, p.1.key sha256 = p.2.key sha256 ∧ p.1.payload.Accepted ∧
    p.2.payload.Accepted

theorem Keyed.serve (h : Keyed sha256 w) (hk : b.key sha256 = a.key sha256)
    (ha : a.payload.Accepted) (hb : b.payload.Accepted) :
    Keyed sha256 { w with served := (a,b) :: w.served } :=
  { h with served := List.forall_mem_cons.mpr ⟨⟨hk.symm,ha,hb⟩,h.served⟩ }

theorem Keyed.step (h : Keyed sha256 w) {act : FrontAct Digest} (hok : Admits w act)
    (hs : w.step sha256 act = some w') : Keyed sha256 w' := by
  cases act with
  | hit r =>
    obtain ⟨o,ho,rfl⟩ := Option.map_eq_some_iff.mp hs
    obtain ⟨hk,ha⟩ := h.entries ho
    exact h.serve hk hok ha
  | lead r =>
    obtain ⟨-,rfl⟩ := Run.guard_neg hs
    refine ⟨h.entries,fun hg => ?_,h.served⟩
    rcases GoMap.get_put_eq_some.mp hg with ⟨rfl,rfl⟩ | ⟨-,hg⟩
    · exact ⟨rfl,hok⟩
    · exact h.flights hg
  | share r =>
    obtain ⟨o,ho,rfl⟩ := Option.map_eq_some_iff.mp hs
    obtain ⟨hk,ha⟩ := h.flights ho
    exact h.serve hk hok ha
  | finish r =>
    cases hs
    exact ⟨h.entries,fun hg => h.flights (GoMap.get_del_eq_some.mp hg).2,h.served⟩
  | store r origin =>
    obtain ⟨hor,rfl⟩ := Run.guard_pos hs
    have ho : origin.key sha256 = r.key sha256 ∧ origin.payload.Accepted := by
      rcases hor with rfl | hse
      · exact ⟨rfl,hok⟩
      · obtain ⟨hk,-,ha⟩ := h.served _ hse
        exact ⟨hk.symm,ha⟩
    refine ⟨fun hg => ?_,h.flights,h.served⟩
    rcases GoMap.get_put_eq_some.mp hg with ⟨rfl,rfl⟩ | ⟨-,hg⟩
    · exact ho
    · exact h.entries hg
  | drop key =>
    cases hs
    exact ⟨fun hg => h.entries (GoMap.get_del_eq_some.mp hg).2,h.flights,h.served⟩

theorem answers_are_own (hsha : Function.Injective sha256) :
    (∀ a b : Request, a.payload.Accepted → b.payload.Accepted →
      (a.key sha256 = b.key sha256 ↔ a = b ∨ Collides a b ∨ Collides b a)) ∧
    ∀ w : Front Digest, Run.Reaches (step sha256) Admits new w →
      ∀ p ∈ w.served, p.1 = p.2 ∨ Collides p.1 p.2 ∨ Collides p.2 p.1 := by
  refine ⟨fun a b ha hb => key_eq_iff hsha ha hb,fun w hw p hp => ?_⟩
  have hn : Keyed sha256 (new : Front Digest) :=
    ⟨fun h => (by cases h),fun h => (by cases h),List.forall_mem_nil _⟩
  have hk : Keyed sha256 w := hw.invariant _ hn fun _ _ _ hs hok hst => hs.step hok hst
  obtain ⟨hke,ha,hb⟩ := hk.served p hp
  exact (key_eq_iff hsha ha hb).mp hke

end Front

section Concrete

def tronService : ServiceID := ⟨ascii "tron",by decide⟩

def utf8 (s : List Char) : Bytes := s.flatMap String.utf8EncodeChar

def resultOf : Value → Result
  | .null => ⟨.null,ascii "null",[]⟩
  | .bool false => ⟨.false,ascii "false",ascii "false"⟩
  | .bool true => ⟨.true,ascii "true",ascii "true"⟩
  | .number lit => ⟨.number,lit,lit⟩
  | .string s => ⟨.string,quote s,utf8 s⟩
  | v => ⟨.json,encode v,encode v⟩

-- A lookup reads the value at the front of the bytes, whatever follows it.
def frontReaders : Readers where
  validBytes := wellFormed
  getBytes body key :=
    match decode body with
    | some (.object ms,_) =>
        ((ms.find? fun m => utf8 m.1 = key).map fun m => resultOf m.2).getD ⟨.null,[],[]⟩
    | _ => ⟨.null,[],[]⟩
  array body :=
    match decode body with
    | some (.array vs,_) => some (vs.map encode)
    | _ => none
  trimSpace body := (skip (skip body).reverse).reverse
  unmarshalArray body :=
    match decode body with
    | some (.array vs,rest) => if skip rest = [] then some (vs.map encode) else none
    | _ => none

-- The method of this body is a NUL and a pair of braces.
def namedBody : Bytes := ascii "\x7b\"method\":\"\\u0000\x7b\x7d\"\x7d"

def unnamedBody : Bytes := ascii "\x7b\x7d" ++ 0 :: namedBody

def restRequest (method body : Bytes) : Request :=
  ⟨tronService,(Payload.new body .rest method).withHTTP (ascii "/wallet/getaccount") (ascii "POST")⟩

theorem tron_bodies_share_key :
    ∃ a b : Request, a.serviceID = tronService ∧ b.serviceID = tronService ∧
      Tron.parseRequest frontReaders (ascii "/wallet/getaccount") (ascii "POST") unnamedBody .rest =
        .ok [a.payload] ∧
      Tron.parseRequest frontReaders (ascii "/wallet/getaccount") (ascii "POST") namedBody .rest =
        .ok [b.payload] ∧
      a.payload.Accepted ∧ b.payload.Accepted ∧ a.payload.method ≠ b.payload.method ∧
      a.payload.data ≠ b.payload.data ∧
      ∀ (Digest : Type) (sha256 : Bytes → Digest), a.key sha256 = b.key sha256 := by
  refine ⟨restRequest [] unnamedBody,restRequest [0,123,125] namedBody,rfl,rfl,
    by decide +kernel,by decide +kernel,by decide +kernel,by decide +kernel,by decide,
    by decide,fun Digest sha256 => congrArg sha256 ?_⟩
  decide +kernel

def receiptBody : Bytes :=
  ascii "\x7b\"jsonrpc\":\"2.0\",\"method\":\"eth_getTransactionReceipt\"\x7d"

def receiptRequest : Request :=
  ⟨tronService,.new receiptBody .jsonRPC (ascii "eth_getTransactionReceipt")⟩

theorem receipt_served_to_itself :
    Function.Injective (id : Bytes → Bytes) ∧
      ∃ w : Front Bytes, Run.Reaches (Front.step id) Front.Admits Front.new w ∧
        w.served = [(receiptRequest,receiptRequest)] ∧
        ∀ p ∈ w.served, p.1 = p.2 ∨ Collides p.1 p.2 ∨ Collides p.2 p.1 :=
  ⟨Function.injective_id,Run.reaches_and [.lead receiptRequest,.finish receiptRequest,
    .store receiptRequest receiptRequest,.hit receiptRequest] (by decide +kernel)
    fun w hr _ => (Front.answers_are_own Function.injective_id).2 w hr⟩

end Concrete

end SageGateway.RequestKey
