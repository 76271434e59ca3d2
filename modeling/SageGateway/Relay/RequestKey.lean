import SageGateway.Domain
import SageGateway.Lib.Json.Compact
import SageGateway.Lib.Terminated

namespace SageGateway.RequestKey

open List

open Json

structure Payload where
  data : Bytes
  rpcType : RPCType
  method : Bytes
  path : Bytes
  httpMethod : Bytes
  deriving DecidableEq

namespace Payload

def new (data : Bytes) (rpcType : RPCType) (method : Bytes) : Payload := ⟨data,rpcType,method,[],[]⟩

def withHTTP (p : Payload) (path httpMethod : Bytes) : Payload :=
  { p with path := path, httpMethod := httpMethod }

end Payload

section Parsing

inductive JSONType where
  | null | false | number | string | true | json
  deriving DecidableEq

-- A gjson result: its type, its raw text and what String answers.
structure Result where
  type : JSONType
  raw : Bytes
  text : Bytes

def Result.found (r : Result) : Bool := decide (r.type ≠ .null) || !r.raw.isEmpty

-- The JSON readers the plugins call.
structure Readers where
  validBytes : Bytes → Bool
  getBytes : Bytes → Bytes → Result
  array : Bytes → Option (List Bytes)
  trimSpace : Bytes → Bytes
  unmarshalArray : Bytes → Option (List Bytes)

inductive ParseError where
  | unsupportedRPCType (rpcType : RPCType)
  | emptyBody
  | notJSON
  | missingMethod
  | methodNotString
  | methodEmpty
  | missingVersion
  | wrongVersion (got : Bytes)
  | batchNotArray
  | batchEmpty
  | batchItem (i : Nat) (cause : ParseError)
  deriving DecidableEq

variable (L : Readers)

namespace Evm

def extractMethod (body : Bytes) : Except ParseError Bytes :=
  let method := L.getBytes body (ascii "method")
  if !method.found then .error .missingMethod
  else if method.type ≠ .string then .error .methodNotString
  else if method.text = [] then .error .methodEmpty
  else
    let ver := L.getBytes body (ascii "jsonrpc")
    if !ver.found then .error .missingVersion
    else if ver.text ≠ ascii "2.0" then .error (.wrongVersion ver.text)
    else .ok method.text

def parseItem (rpcType : RPCType) (i : Nat) (raw : Bytes) : Except ParseError Payload :=
  match extractMethod L raw with
  | .error e => .error (.batchItem i e)
  | .ok method => .ok (.new raw rpcType method)

def parseItems (rpcType : RPCType) : Nat → List Bytes → Except ParseError (List Payload)
  | _,[] => .ok []
  | i,raw :: rest =>
      match parseItem L rpcType i raw,parseItems rpcType (i + 1) rest with
      | .error e,_ => .error e
      | .ok _,.error e => .error e
      | .ok p,.ok ps => .ok (p :: ps)

def parseBatch (body : Bytes) (rpcType : RPCType) : Except ParseError (List Payload) :=
  match L.array body with
  | none => .error .batchNotArray
  | some [] => .error .batchEmpty
  | some items => parseItems L rpcType 0 items

def parseSingle (body : Bytes) (rpcType : RPCType) : Except ParseError (List Payload) :=
  match extractMethod L body with
  | .error e => .error e
  | .ok method => .ok [.new body rpcType method]

def parseRequest (body : Bytes) (rpcType : RPCType) : Except ParseError (List Payload) :=
  if rpcType ≠ .jsonRPC ∧ rpcType ≠ .webSocket then .error (.unsupportedRPCType rpcType)
  else if body = [] then .error .emptyBody
  else if !L.validBytes body then .error .notJSON
  else if (skip body).head? = some 91 then parseBatch L body rpcType
  else parseSingle L body rpcType

end Evm

namespace Solana

def parseRequest (body : Bytes) : Except ParseError (List Payload) :=
  if body = [] then .error .emptyBody
  else
    let method := L.getBytes body (ascii "method")
    if !method.found || method.text.isEmpty then .error .missingMethod
    else .ok [.new body .jsonRPC method.text]

end Solana

namespace Noop

def extractMethodBestEffort (body : Bytes) : Bytes :=
  let method := L.getBytes body (ascii "method")
  if method.type = .string then method.text else []

def payload (path httpMethod : Bytes) (rpcType : RPCType) (item : Bytes) : Payload :=
  (Payload.new item rpcType (extractMethodBestEffort L item)).withHTTP path httpMethod

def parseRequest (path httpMethod body : Bytes) (rpcType : RPCType) : List Payload :=
  if body = [] then [(Payload.new [] rpcType []).withHTTP path httpMethod]
  else
    let trimmed := L.trimSpace body
    match if trimmed.head? = some 91 then L.unmarshalArray trimmed else none with
    | some (x :: y :: items) => (x :: y :: items).map (payload L path httpMethod rpcType)
    | _ => [payload L path httpMethod rpcType body]

end Noop

namespace Tron

def parseRequest (path httpMethod body : Bytes) (rpcType : RPCType) :
    Except ParseError (List Payload) :=
  if rpcType = .jsonRPC ∨ rpcType = .webSocket then Evm.parseRequest L body rpcType
  else .ok (Noop.parseRequest L path httpMethod body rpcType)

end Tron

end Parsing

section Key

def RPCType.bytes (t : RPCType) : Bytes := t.text.map fun c => UInt8.ofNat c.toNat

def writeRequestKey (p : Payload) : Bytes :=
  Terminated.fields 0 [RPCType.bytes p.rpcType,p.httpMethod,p.path,p.method] ++ p.data

variable {Digest : Type} (sha256 : Bytes → Digest)

def cacheKey (serviceID : Bytes) (payloads : List Payload) : Digest :=
  sha256 (serviceID ++ payloads.flatMap writeRequestKey)

end Key

-- net/http hands over no header value with a control byte other than the tab.
def validHeaderFieldValue (v : Bytes) : Bool :=
  v.all fun b => !(decide (b < 32) || b == 127) || b == 32 || b == 9

structure ServiceID where
  bytes : Bytes
  valid : validHeaderFieldValue bytes = true
  deriving DecidableEq

structure Request where
  serviceID : ServiceID
  payload : Payload
  deriving DecidableEq

namespace Request

def key {Digest : Type} (sha256 : Bytes → Digest) (r : Request) : Digest :=
  cacheKey sha256 r.serviceID.bytes [r.payload]

end Request

structure Payload.Accepted (p : Payload) : Prop where
  known : p.rpcType ∈ RPCType.allRPCTypes
  httpMethod : 0 ∉ p.httpMethod
  path : 0 ∉ p.path
  body : p.method ≠ [] → wellFormed p.data = true

instance (p : Payload) : Decidable p.Accepted :=
  decidable_of_iff (p.rpcType ∈ RPCType.allRPCTypes ∧ 0 ∉ p.httpMethod ∧ 0 ∉ p.path ∧
      (p.method ≠ [] → wellFormed p.data = true))
    ⟨fun ⟨h₁,h₂,h₃,h₄⟩ => ⟨h₁,h₂,h₃,h₄⟩,fun ⟨h₁,h₂,h₃,h₄⟩ => ⟨h₁,h₂,h₃,h₄⟩⟩

theorem nul_notMem_rpcType (t : RPCType) : 0 ∉ RPCType.bytes t := by
  cases t <;> decide

theorem nul_notMem_serviceID (s : ServiceID) : 0 ∉ s.bytes := by
  intro hm
  have := all_eq_true.mp s.valid 0 hm
  revert this
  decide

-- No known name ends another one, so the name can be told from the service before it.
theorem rpcType_eq_of_suffix : ∀ t ∈ RPCType.allRPCTypes, ∀ u ∈ RPCType.allRPCTypes,
    RPCType.bytes t <:+ RPCType.bytes u → t = u := by
  decide

theorem service_rpcType_inj {s s' : Bytes} {t t' : RPCType} (ht : t ∈ RPCType.allRPCTypes)
    (ht' : t' ∈ RPCType.allRPCTypes) (h : s ++ RPCType.bytes t = s' ++ RPCType.bytes t') :
    s = s' ∧ t = t' := by
  have hs : t = t' := by
    rcases append_eq_append_iff.mp h with ⟨c,-,hc⟩ | ⟨c,-,hc⟩
    · exact (rpcType_eq_of_suffix t' ht' t ht ⟨c,hc.symm⟩).symm
    · exact rpcType_eq_of_suffix t ht t' ht' ⟨c,hc.symm⟩
  subst hs
  exact ⟨append_cancel_right h,rfl⟩

def Payload.SameRoute (p q : Payload) : Prop :=
  p.rpcType = q.rpcType ∧ p.httpMethod = q.httpMethod ∧ p.path = q.path

-- One request has no method, the other one's begins with a NUL, and the body of the first holds
-- what the key writes of the second.
def Collides (a b : Request) : Prop :=
  a.serviceID = b.serviceID ∧ a.payload.SameRoute b.payload ∧ a.payload.method = [] ∧
    ∃ m, b.payload.method = 0 :: m ∧ a.payload.data = m ++ 0 :: b.payload.data

-- A body that is JSON holds no NUL, so where both requests have a method the last NUL ends it.
theorem method_data_cases {p q : Payload} (hp : p.Accepted) (hq : q.Accepted)
    (h : p.method ++ 0 :: p.data = q.method ++ 0 :: q.data) :
    p.method = q.method ∧ p.data = q.data ∨
    p.method = [] ∧ (∃ m, q.method = 0 :: m ∧ p.data = m ++ 0 :: q.data) ∨
    q.method = [] ∧ ∃ m, p.method = 0 :: m ∧ q.data = m ++ 0 :: p.data := by
  cases hm : p.method with
  | nil =>
    cases hn : q.method with
    | nil =>
      rw [hm,hn] at h
      exact .inl ⟨rfl,(List.cons.inj h).2⟩
    | cons c m =>
      rw [hm,hn] at h
      obtain ⟨rfl,hd⟩ := List.cons.inj h
      exact .inr (.inl ⟨rfl,m,rfl,hd⟩)
  | cons c m =>
    cases hn : q.method with
    | nil =>
      rw [hm,hn] at h
      obtain ⟨rfl,hd⟩ := List.cons.inj h
      exact .inr (.inr ⟨rfl,m,rfl,hd.symm⟩)
    | cons d n =>
      have hj : ∀ {r : Payload}, r.Accepted → r.method ≠ [] → 0 ∉ r.data := fun hr hne =>
        nul_notMem_of_wellFormed (hr.body hne)
      rw [← hm,← hn]
      exact .inl (Terminated.split_last (hj hp (by simp [hm])) (hj hq (by simp [hn])) h)

theorem key_input (r : Request) :
    r.serviceID.bytes ++ [r.payload].flatMap writeRequestKey =
      Terminated.fields 0 [r.serviceID.bytes ++ RPCType.bytes r.payload.rpcType,
        r.payload.httpMethod,r.payload.path] ++ (r.payload.method ++ 0 :: r.payload.data) := by
  simp [writeRequestKey,Terminated.fields]

theorem route_of_input {a b : Request} (ha : a.payload.Accepted) (hb : b.payload.Accepted)
    (h : a.serviceID.bytes ++ [a.payload].flatMap writeRequestKey =
      b.serviceID.bytes ++ [b.payload].flatMap writeRequestKey) :
    a.serviceID = b.serviceID ∧ a.payload.SameRoute b.payload ∧
      a.payload.method ++ 0 :: a.payload.data = b.payload.method ++ 0 :: b.payload.data := by
  have hfr : ∀ r : Request, r.payload.Accepted →
      ∀ f ∈ [r.serviceID.bytes ++ RPCType.bytes r.payload.rpcType,r.payload.httpMethod,
        r.payload.path], 0 ∉ f := by
    intro r hr
    refine forall_mem_cons.mpr ⟨fun hme => ?_,
      forall_mem_cons.mpr ⟨hr.httpMethod,forall_mem_singleton.mpr hr.path⟩⟩
    rcases mem_append.mp hme with hs | ht
    · exact nul_notMem_serviceID _ hs
    · exact nul_notMem_rpcType _ ht
  rw [key_input,key_input] at h
  obtain ⟨hf,hta⟩ := Terminated.fields_inj (by rfl) (hfr a ha) (hfr b hb) h
  simp [List.cons.injEq] at hf
  obtain ⟨hfi,hm,hp⟩ := hf
  obtain ⟨hse,hty⟩ := service_rpcType_inj ha.known hb.known hfi
  refine ⟨?_,⟨hty,hm,hp⟩,hta⟩
  cases hs : a.serviceID
  cases hs' : b.serviceID
  simpa [hs,hs'] using hse

theorem Collides.input {a b : Request} (h : Collides a b) :
    a.serviceID.bytes ++ [a.payload].flatMap writeRequestKey =
      b.serviceID.bytes ++ [b.payload].flatMap writeRequestKey := by
  obtain ⟨hs,⟨ht,hv,hp⟩,hm,m,hn,hd⟩ := h
  rw [key_input,key_input,hs,ht,hv,hp,hm,hn,hd]
  rfl

theorem key_eq_iff {Digest : Type} {sha256 : Bytes → Digest} (hs : Function.Injective sha256)
    {a b : Request} (ha : a.payload.Accepted) (hb : b.payload.Accepted) :
    a.key sha256 = b.key sha256 ↔ a = b ∨ Collides a b ∨ Collides b a := by
  constructor
  · intro h
    obtain ⟨hse,hr,hta⟩ := route_of_input ha hb (hs h)
    rcases method_data_cases ha hb hta with ⟨hn,hd⟩ | hc | ⟨hn,hc⟩
    · obtain ⟨s,⟨d,t,m,u,v⟩⟩ := a
      obtain ⟨s',⟨d',t',m',u',v'⟩⟩ := b
      obtain ⟨ht,hv,hp⟩ := hr
      dsimp only at hse ht hv hp hn hd
      subst hse ht hv hp hn hd
      exact .inl rfl
    · exact .inr (.inl ⟨hse,hr,hc⟩)
    · exact .inr (.inr ⟨hse.symm,⟨hr.1.symm,hr.2.1.symm,hr.2.2.symm⟩,hn,hc⟩)
  · rintro (rfl | h | h)
    · rfl
    · exact congrArg sha256 h.input
    · exact (congrArg sha256 h.input).symm

end SageGateway.RequestKey
