import SageGateway.Domain
import SageGateway.Lib.GoMap

namespace SageGateway

structure BlockedDomain where
  domain : GoString
  rpcTypes : List GoString
  deriving DecidableEq

inductive BlocklistError where
  | emptyDomain
  | unknownRPCType (host t : GoString)
  deriving DecidableEq

abbrev BlockedTable := GoMap GoString (Option (Finset RPCType))

namespace BlockedDomain

def host (P : Platform) (e : BlockedDomain) : GoString :=
  P.toLower (GoString.trimSpace e.domain)

def addRPCTypes (host : GoString) (set : Finset RPCType) :
    List GoString → Except BlocklistError (Finset RPCType)
  | [] => .ok set
  | t :: ts =>
      match RPCType.parseRPCType (GoString.trimSpace t) with
      | some r => addRPCTypes host (insert r set) ts
      | none => .error (.unknownRPCType host t)

def addEntry (P : Platform) (blocked : BlockedTable) (e : BlockedDomain) :
    Except BlocklistError BlockedTable :=
  if e.host P = [] then .error .emptyDomain
  else if e.rpcTypes = [] then .ok (blocked.put (e.host P) none)
  else match blocked.get (e.host P) with
    | some none => .ok blocked
    | some (some set) =>
        (addRPCTypes (e.host P) set e.rpcTypes).map fun s => blocked.put (e.host P) (some s)
    | none =>
        (addRPCTypes (e.host P) ∅ e.rpcTypes).map fun s => blocked.put (e.host P) (some s)

def compile (P : Platform) : BlockedTable → List BlockedDomain → Except BlocklistError BlockedTable
  | blocked, [] => .ok blocked
  | blocked, e :: es =>
      match addEntry P blocked e with
      | .ok blocked' => compile P blocked' es
      | .error err => .error err

def parsePiece (piece : GoString) : BlockedDomain :=
  match GoString.cut ':' piece with
  | none => ⟨GoString.trimSpace piece,[]⟩
  | some (h,typesStr) =>
      ⟨GoString.trimSpace h,
        ((GoString.split '|' typesStr).map GoString.trimSpace).filter (· ≠ [])⟩

def parseBlockedDomainsEnv (raw : GoString) : List BlockedDomain :=
  if GoString.trimSpace raw = [] then []
  else (((GoString.split ',' (GoString.trimSpace raw)).map GoString.trimSpace).filter
    (· ≠ [])).map parsePiece

end BlockedDomain

def computeMatchKey (P : Platform) (blocked : BlockedTable) (rawURL : GoString) : GoString :=
  let addr : EndpointAddr := '-' :: rawURL
  let host := P.toLower addr.domain
  if host = [] then []
  else if blocked.has host then host
  else
    let operator := P.toLower (addr.operator P)
    if operator ≠ host ∧ blocked.has operator then operator else []

structure DomainBlocklist (P : Platform) where
  blocked : BlockedTable
  cache : GoMap GoString GoString
  cacheCount : Nat
  named : blocked.get [] = none
  memo : ∀ u k, cache.get u = some k → k = computeMatchKey P blocked u

namespace DomainBlocklist

variable {P : Platform}

def maxBlocklistCacheEntries : Nat := 2 ^ 16

def matchKey (b : DomainBlocklist P) (rawURL : GoString) : GoString × DomainBlocklist P :=
  match b.cache.get rawURL with
  | some key => (key,b)
  | none =>
      let key := computeMatchKey P b.blocked rawURL
      if b.cacheCount < maxBlocklistCacheEntries then
        (key,{ b with
          cache := b.cache.put rawURL key
          cacheCount := b.cacheCount + 1
          memo := by
            intro u k h
            rw [GoMap.get_put] at h
            split_ifs at h with hu
            · cases h
              rw [hu]
            · exact b.memo u k h })
      else (key,b)

def blockedKey (b : DomainBlocklist P) (rawURL owner : GoString) : GoString × DomainBlocklist P :=
  if owner ≠ [] ∧ b.blocked.has owner then (owner,b)
  else if rawURL ≠ [] then b.matchKey rawURL
  else ([],b)

def banned (b : DomainBlocklist P) (key : GoString) (rpcType : RPCType) : Bool :=
  if key = [] then false
  else match b.blocked.get key with
    | some (some set) => rpcType ∈ set
    | _ => true

def isBlockedEndpoint (b : Option (DomainBlocklist P)) (rawURL owner : GoString)
    (rpcType : RPCType) : Bool × Option (DomainBlocklist P) :=
  match b with
  | none => (false,none)
  | some b =>
      let (key,b') := b.blockedKey rawURL owner
      (b.banned key rpcType,some b')

theorem matchKey_fst (b : DomainBlocklist P) (rawURL : GoString) :
    (b.matchKey rawURL).1 = computeMatchKey P b.blocked rawURL := by
  unfold matchKey
  split
  · rename_i key hk
    exact b.memo rawURL key hk
  · dsimp only
    split_ifs <;> rfl

end DomainBlocklist

namespace BlockedDomain

theorem addEntry_named {P : Platform} {blocked blocked' : BlockedTable} {e : BlockedDomain}
    (h : blocked.get [] = none) (ha : addEntry P blocked e = .ok blocked') :
    blocked'.get [] = none := by
  unfold addEntry at ha
  split_ifs at ha with hh hts
  · cases ha
    rw [GoMap.get_put_ne _ _ (Ne.symm hh),h]
  · have hp : ∀ set : Finset RPCType, ((addRPCTypes (e.host P) set e.rpcTypes).map
        fun s => blocked.put (e.host P) (some s)) = .ok blocked' → blocked'.get [] = none := by
      intro set hset
      cases hr : addRPCTypes (e.host P) set e.rpcTypes with
      | error err => simp [hr,Except.map] at hset
      | ok s =>
        simp [hr,Except.map,Except.ok.injEq] at hset
        rw [← hset,GoMap.get_put_ne _ _ (Ne.symm hh),h]
    split at ha
    · cases ha
      exact h
    · exact hp _ ha
    · exact hp _ ha

theorem compile_named {P : Platform} {blocked blocked' : BlockedTable} {es : List BlockedDomain}
    (h : blocked.get [] = none) (hc : compile P blocked es = .ok blocked') :
    blocked'.get [] = none := by
  induction es generalizing blocked with
  | nil =>
    cases hc
    exact h
  | cons e es ih =>
    simp [compile] at hc
    split at hc
    · rename_i mid hm
      exact ih (addEntry_named h hm) hc
    · cases hc

end BlockedDomain

def newDomainBlocklist (P : Platform) (env : GoString) (entries : List BlockedDomain) :
    Except BlocklistError (Option (DomainBlocklist P)) :=
  let entries := entries ++ BlockedDomain.parseBlockedDomainsEnv env
  if entries = [] then .ok none
  else match h : BlockedDomain.compile P ∅ entries with
    | .ok blocked =>
        .ok (some ⟨blocked,∅,0,BlockedDomain.compile_named (GoMap.get_empty _) h,by simp⟩)
    | .error err => .error err

end SageGateway
